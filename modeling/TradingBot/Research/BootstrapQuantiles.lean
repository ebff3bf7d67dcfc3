import TradingBot.Library.Digests
import TradingBot.Research.Bootstrap

namespace TradingBot.Research.Bootstrap

open Market.Models Library.Dictionary Library.OverlayLog Library.OrderStatistics
open Research.Artifacts Research.Registry Research.Robustness Research.Gates Research.GateEvaluator
open Research.WalkForward (twoDigits ofDigitChars_twoDigits isDigit_of_mem_twoDigits)
open Library.Outcome (except_bind_eq_ok mapError_eq_ok_iff)

section Statement

def requested (reader : Reader) (config : RobustnessConfig) : List Decimal :=
  (config.quantiles.getD []).map reader.number

def pathTotals (starts : RandomStarts) (config : RobustnessConfig) (rows : List EquityRow) : List Decimal :=
  (simulatedPaths starts (periodPnlSeriesFromEquity rows) (config.blockLength.getD 0).toNat
    (config.nSimulations.getD 0).toNat (config.seed.getD 0)).map pathNetPnl

def MeasuresFivePercent (reader : Reader) (config : RobustnessConfig) : Prop :=
  ∀ (starts : RandomStarts) (lookup : RunLookup) (ctx : EvaluationContext) (evidence : RobustnessEvidence)
    (baseRunId : String) (measured : List (RobustnessTest × Decimal)) (q05 : Decimal),
    evidence.manifest.config = some config →
    measurementsFromRobustnessManifest lookup { ctx with bootstrapQ05 := bootstrapQ05 reader starts } evidence
      baseRunId = .ok measured → (.bootstrap, q05) ∈ measured →
    ∃ run content rows, lookup baseRunId = .ok run ∧ run.directory.get? ["equity.json"] = some content ∧
      reader.equityRows content = .ok rows ∧ q05 = linearQuantile (pathTotals starts config rows) (1 / 20)

def LabelsDistinct (reader : Reader) (config : RobustnessConfig) : Prop :=
  ∀ q ∈ requested reader config, ∀ q' ∈ requested reader config, q ≠ q' → quantileLabel q ≠ quantileLabel q'

/-- No two of the requested quantiles agree in their whole percents, and the one that is read as 5 percent, if
there is one, is 5 percent, unless there is one simulation only. -/
structure WholePercents (reader : Reader) (config : RobustnessConfig) : Prop where
  distinct : ∀ q ∈ requested reader config, ∀ q' ∈ requested reader config, percent q = percent q' → q = q'
  five : config.nSimulations = some 1 ∨ ∀ q ∈ requested reader config, 1 / 20 ≤ q → q < 3 / 50 → q = 1 / 20

end Statement

section Labels

variable {q q' : Decimal}

theorem padded_injective : Function.Injective padded := by
  have hhead : ∀ n : ℕ, ∀ text : String, twoDigits n ≠ "-" ++ text := by
    intro n text h
    have hmem : '-' ∈ (twoDigits n).toList := by
      rw [h]
      simp
    exact absurd (isDigit_of_mem_twoDigits hmem) (by decide)
  have htext : Function.Injective fun n : ℕ => toString n := by
    intro n m h
    have hdigits := congrArg (fun text : String => Nat.ofDigitChars 10 text.toList 0) h
    simpa [Nat.repr_eq_ofList_toDigits] using hdigits
  intro n m h
  unfold padded at h
  by_cases hn : n < 0
  · by_cases hm : m < 0
    · rw [if_pos hn, if_pos hm, String.append_right_inj] at h
      have habs := htext h
      omega
    · rw [if_pos hn, if_neg hm] at h
      exact absurd h.symm (hhead _ _)
  · by_cases hm : m < 0
    · rw [if_neg hn, if_pos hm] at h
      exact absurd h (hhead _ _)
    · rw [if_neg hn, if_neg hm] at h
      have habs := Research.WalkForward.twoDigits_injective h
      omega

theorem quantileLabel_eq_iff : quantileLabel q = quantileLabel q' ↔ percent q = percent q' := by
  rw [quantileLabel, quantileLabel, String.append_right_inj, padded_injective.eq_iff]

theorem percent_eq_five_iff : percent q = 5 ↔ 1 / 20 ≤ q ∧ q < 3 / 50 := by
  unfold percent
  by_cases hq : 0 ≤ q
  · rw [if_pos hq, Int.floor_eq_iff]
    norm_num
    constructor
    · rintro ⟨hlow, hhigh⟩
      exact ⟨by linarith, by linarith⟩
    · rintro ⟨hlow, hhigh⟩
      exact ⟨by linarith, by linarith⟩
  · rw [if_neg hq]
    have hceil : ⌈q * 100⌉ ≤ 0 := by
      rw [Int.ceil_le]
      push_cast
      linarith
    constructor
    · intro h
      omega
    · rintro ⟨hlow, -⟩
      linarith

theorem quantileLabel_eq_q05_iff : quantileLabel q = "q05" ↔ 1 / 20 ≤ q ∧ q < 3 / 50 := by
  have hlabel : "q05" = "q" ++ padded 5 := by decide
  rw [hlabel, quantileLabel, String.append_right_inj, padded_injective.eq_iff, percent_eq_five_iff]

theorem labelsDistinct_iff {reader : Reader} {config : RobustnessConfig} : LabelsDistinct reader config ↔
    ∀ q ∈ requested reader config, ∀ q' ∈ requested reader config, percent q = percent q' → q = q' := by
  unfold LabelsDistinct
  simp only [ne_eq, quantileLabel_eq_iff, not_imp_not]

end Labels

section Quantile

variable {values quantiles : List Decimal} {q : Decimal} {k : String}

theorem quantile_returns (h : values ≠ []) : ∃ value, quantile values q = .ok value := by
  rw [quantile, if_neg h]
  by_cases hlow : q ≤ 0
  · exact ⟨_, if_pos hlow⟩
  · rw [if_neg hlow]
    by_cases hhigh : 1 ≤ q
    · exact ⟨_, if_pos hhigh⟩
    · rw [if_neg hhigh]
      dsimp only
      split_ifs
      · exact ⟨_, rfl⟩
      · exact ⟨_, rfl⟩

theorem quantile_eq_linearQuantile (h : values ≠ []) (hlow : 0 < q) (hhigh : q < 1) :
    quantile (values.insertionSort (· ≤ ·)) q = .ok (linearQuantile values q) := by
  have hsorted : values.insertionSort (· ≤ ·) ≠ [] := by
    intro hnil
    exact h (List.length_eq_zero_iff.mp (by rw [← List.length_insertionSort (· ≤ ·), hnil]; rfl))
  rw [quantile, if_neg hsorted, if_neg (not_le.mpr hlow), if_neg (not_le.mpr hhigh), List.length_insertionSort]
  dsimp only
  rw [linearQuantile, interpolate]
  generalize hpos : ((values.length : Decimal) - 1) * q = pos
  have hnonneg : 0 ≤ pos := by
    rw [← hpos]
    have hlength : 1 ≤ values.length := List.length_pos_iff.mpr h
    have hcast : (1 : Decimal) ≤ values.length := by exact_mod_cast hlength
    exact mul_nonneg (by linarith) hlow.le
  by_cases hwhole : ⌊pos⌋₊ = ⌈pos⌉₊
  · have heq : pos = ⌊pos⌋₊ :=
      le_antisymm ((Nat.le_ceil pos).trans_eq (by rw [hwhole])) (Nat.floor_le hnonneg)
    rw [if_pos hwhole, ← heq]
    simp only [orderStatistic, sub_self, zero_mul, add_zero]
  · have hceil : ⌈pos⌉₊ = ⌊pos⌋₊ + 1 := by
      have hle := Nat.ceil_le_floor_add_one pos
      have hge := Nat.floor_le_ceil pos
      omega
    rw [if_neg hwhole, hceil]
    simp only [orderStatistic]
    congr 1
    ring

theorem quantileMap_get? (h : values ≠ []) : ∃ result, quantileMap values quantiles = .ok result ∧
    ∀ k, result.get? k = (newest quantileLabel k quantiles).bind fun q =>
      (quantile (values.insertionSort (· ≤ ·)) q).toOption := by
  have hsorted : values.insertionSort (· ≤ ·) ≠ [] := by
    intro hnil
    exact h (List.length_eq_zero_iff.mp (by rw [← List.length_insertionSort (· ≤ ·), hnil]; rfl))
  unfold quantileMap
  dsimp only
  induction quantiles using List.reverseRecOn with
  | nil => exact ⟨{}, rfl, fun k => rfl⟩
  | append_singleton quantiles q ih =>
    obtain ⟨result, hresult, hget⟩ := ih
    obtain ⟨value, hvalue⟩ := quantile_returns (q := q) hsorted
    refine ⟨result.set (quantileLabel q) value, ?_, fun k => ?_⟩
    · rw [List.foldlM_append, hresult]
      simp only [List.foldlM_cons, List.foldlM_nil, bind, Except.bind, pure, Except.pure, hvalue]
    · rw [newest_append, Dict.get?_set]
      by_cases hk : quantileLabel q = k
      · rw [if_pos hk.symm, if_pos hk, Option.bind_some, hvalue]
        rfl
      · rw [if_neg (Ne.symm hk), if_neg hk, hget]

end Quantile

theorem toOption_eq_some_iff {ε α : Type} {x : Except ε α} {a : α} : x.toOption = some a ↔ x = .ok a := by
  cases x with
  | error e => simp [Except.toOption]
  | ok b => simp [Except.toOption]

section Measured

variable {reader : Reader} {starts : RandomStarts} {lookup : RunLookup} {ctx : EvaluationContext}
  {evidence : RobustnessEvidence} {baseRunId robustnessId : String} {manifest : RobustnessManifest}
  {config : RobustnessConfig} {q05 : Decimal} {raw : RawBootstrapConfig}

def bootstrapConfig (blockLength nSimulations seed : ℤ) (quantiles : List String) : RobustnessConfig where
  blockLength := some blockLength
  nSimulations := some nSimulations
  seed := some seed
  quantiles := some quantiles

theorem normalizeConfig_ok (h : normalizeConfig raw = .ok config) : ∃ blockLength nSimulations seed quantiles,
    config = bootstrapConfig blockLength nSimulations seed quantiles ∧ 1 ≤ blockLength ∧ 1 ≤ nSimulations := by
  obtain ⟨blockLength, -, h⟩ := except_bind_eq_ok.mp h
  obtain ⟨nSimulations, -, h⟩ := except_bind_eq_ok.mp h
  obtain ⟨seed, -, h⟩ := except_bind_eq_ok.mp h
  obtain ⟨quantiles, -, h⟩ := except_bind_eq_ok.mp h
  by_cases hblock : blockLength < 1
  · rw [if_pos hblock] at h
    cases h
  · by_cases hsimulations : nSimulations < 1
    · rw [if_neg hblock, if_pos hsimulations] at h
      cases h
    · rw [if_neg hblock, if_neg hsimulations] at h
      exact ⟨blockLength, nSimulations, seed, quantiles, (Except.ok.inj h).symm, by omega, by omega⟩

theorem sealedQ05_ok_iff {blockLength nSimulations seed : ℤ} {quantiles : List String}
    (hconfig : manifest.config = some (bootstrapConfig blockLength nSimulations seed quantiles)) :
    bootstrapQ05FromSealedEquity lookup robustnessId ctx manifest baseRunId = .ok q05 ↔
      ∃ run sealedQ05, lookup baseRunId = .ok run ∧
        ctx.bootstrapQ05 (run.directory.get? ["equity.json"]) blockLength nSimulations seed quantiles = .ok (some q05) ∧
        manifest.bootstrapQ05 = some sealedQ05 ∧ |sealedQ05 - q05| ≤ 1 / 10 ^ 9 := by
  unfold bootstrapQ05FromSealedEquity
  rw [hconfig]
  dsimp only [bootstrapConfig]
  constructor
  · intro h
    obtain ⟨run, hrun, h⟩ := except_bind_eq_ok.mp h
    obtain ⟨recomputed, hrecomputed, h⟩ := except_bind_eq_ok.mp h
    rw [mapError_eq_ok_iff] at hrun hrecomputed
    split at h
    · cases h
    · cases h
    · next recomputed sealedQ05 hsealed =>
      obtain ⟨_, hclose, h⟩ := except_bind_eq_ok.mp h
      obtain rfl := Except.ok.inj h
      rw [reject_ok_iff, decide_eq_false_iff_not, not_lt] at hclose
      exact ⟨run, sealedQ05, hrun, hrecomputed, hsealed, hclose⟩
  · rintro ⟨run, sealedQ05, hrun, hrecomputed, hsealed, hclose⟩
    refine except_bind_eq_ok.mpr ⟨run, mapError_eq_ok_iff.mpr hrun, ?_⟩
    refine except_bind_eq_ok.mpr ⟨some q05, mapError_eq_ok_iff.mpr hrecomputed, ?_⟩
    rw [hsealed]
    refine except_bind_eq_ok.mpr ⟨(), ?_, rfl⟩
    rw [reject_ok_iff, decide_eq_false_iff_not, not_lt]
    exact hclose

theorem measured_bootstrap {measured : List (RobustnessTest × Decimal)}
    (h : measurementsFromRobustnessManifest lookup ctx evidence baseRunId = .ok measured)
    (hmem : (.bootstrap, q05) ∈ measured) :
    bootstrapQ05FromSealedEquity lookup evidence.robustnessId ctx evidence.manifest baseRunId = .ok q05 := by
  unfold measurementsFromRobustnessManifest at h
  dsimp only at h
  split at h
  · obtain ⟨_, -, h⟩ := except_bind_eq_ok.mp h
    obtain rfl := Except.ok.inj h
    simp at hmem
  · obtain ⟨_, -, h⟩ := except_bind_eq_ok.mp h
    obtain rfl := Except.ok.inj h
    simp at hmem
  · obtain ⟨_, -, h⟩ := except_bind_eq_ok.mp h
    obtain rfl := Except.ok.inj h
    simp at hmem
  · obtain ⟨measuredQ05, hmeasured, h⟩ := except_bind_eq_ok.mp h
    obtain rfl := Except.ok.inj h
    obtain rfl : q05 = measuredQ05 := by simpa using hmem
    exact hmeasured
  · obtain rfl := Except.ok.inj h
    cases hmem

section Paths

variable {series quantiles : List Decimal} {blockLength nSimulations seed : ℤ} {stats : PathBootstrapResult}

theorem simulatedPaths_ne_nil (h : 1 ≤ nSimulations) :
    simulatedPaths starts series blockLength.toNat nSimulations.toNat seed ≠ [] := by
  intro hnil
  have hlength := congrArg List.length hnil
  simp only [simulatedPaths, List.length_map, List.length_range, List.length_nil] at hlength
  omega

theorem blockBootstrapPaths_returns (hblock : 1 ≤ blockLength) (hsimulations : 1 ≤ nSimulations)
    (hseries : blockLength < series.length) : ∃ stats,
      blockBootstrapPaths starts series blockLength nSimulations seed quantiles = .ok stats ∧
        ∀ k, stats.netPnlQuantiles.get? k = (newest quantileLabel k quantiles).bind fun q =>
          (quantile (((simulatedPaths starts series blockLength.toNat nSimulations.toNat seed).map
            pathNetPnl).insertionSort (· ≤ ·)) q).toOption := by
  have hpaths : simulatedPaths starts series blockLength.toNat nSimulations.toNat seed ≠ [] :=
    simulatedPaths_ne_nil hsimulations
  have hsample : validateBootstrapSample series blockLength = .ok () := by
    rw [validateBootstrapSample, if_neg (by omega), if_neg (by omega)]
  have hnonempty : series ≠ [] := by
    rintro rfl
    simp at hseries
    omega
  unfold blockBootstrapPaths
  rw [if_neg (by omega), if_neg (by omega), if_neg hnonempty]
  generalize simulatedPaths starts series blockLength.toNat nSimulations.toNat seed = paths at hpaths ⊢
  obtain ⟨netPnls, hnetPnls, hget⟩ : ∃ netPnls, quantileMap (paths.map pathNetPnl) quantiles = .ok netPnls ∧ _ :=
    quantileMap_get? (by simpa using hpaths)
  obtain ⟨maxDds, hmaxDds, -⟩ : ∃ maxDds, quantileMap (paths.map pathMaxDrawdown) quantiles = .ok maxDds ∧ _ :=
    quantileMap_get? (by simpa using hpaths)
  refine ⟨⟨nSimulations, blockLength, seed, netPnls, maxDds, mean (paths.map pathNetPnl),
    mean (paths.map pathMaxDrawdown)⟩, ?_, hget⟩
  simp only [bind, Except.bind, pure, Except.pure, hsample, hnetPnls, hmaxDds]

theorem blockBootstrapPaths_sample
    (h : blockBootstrapPaths starts series blockLength nSimulations seed quantiles = .ok stats) :
    1 ≤ blockLength ∧ 1 ≤ nSimulations ∧ blockLength < series.length := by
  unfold blockBootstrapPaths at h
  by_cases hblock : blockLength < 1
  · rw [if_pos hblock] at h
    cases h
  · by_cases hsimulations : nSimulations < 1
    · rw [if_neg hblock, if_pos hsimulations] at h
      cases h
    · by_cases hseries : series = []
      · rw [if_neg hblock, if_neg hsimulations, if_pos hseries] at h
        cases h
      · rw [if_neg hblock, if_neg hsimulations, if_neg hseries] at h
        obtain ⟨_, hsample, -⟩ := except_bind_eq_ok.mp h
        unfold validateBootstrapSample at hsample
        by_cases hshort : series.length < 2
        · rw [if_pos hshort] at hsample
          cases hsample
        · by_cases hlong : (series.length : ℤ) ≤ blockLength
          · rw [if_neg hshort, if_pos hlong] at hsample
            cases hsample
          · exact ⟨by omega, by omega, by omega⟩

end Paths

section Read

variable {file : Option Content} {blockLength nSimulations seed : ℤ} {texts : List String}

theorem bootstrapQ05_ok
    (h : bootstrapQ05 reader starts file blockLength nSimulations seed texts = .ok (some q05)) :
    ∃ content rows q, file = some content ∧ reader.equityRows content = .ok rows ∧ 1 ≤ nSimulations ∧
      newest quantileLabel "q05" (texts.map reader.number) = some q ∧
      quantile (((simulatedPaths starts (periodPnlSeriesFromEquity rows) blockLength.toNat nSimulations.toNat
        seed).map pathNetPnl).insertionSort (· ≤ ·)) q = .ok q05 := by
  obtain ⟨stats, hstats, hread⟩ := except_bind_eq_ok.mp h
  cases file with
  | none => cases hstats
  | some content =>
    obtain ⟨rows, hrows, hstats⟩ := except_bind_eq_ok.mp hstats
    obtain ⟨hblock, hsimulations, hseries⟩ := blockBootstrapPaths_sample hstats
    obtain ⟨stats', hstats', hget⟩ : ∃ stats', blockBootstrapPaths starts (periodPnlSeriesFromEquity rows) blockLength
        nSimulations seed (texts.map reader.number) = .ok stats' ∧ _ :=
      blockBootstrapPaths_returns hblock hsimulations hseries
    obtain rfl : stats = stats' := Except.ok.inj (hstats.symm.trans hstats')
    have hq05 := Except.ok.inj hread
    rw [hget] at hq05
    obtain ⟨q, hq, hvalue⟩ := Option.bind_eq_some_iff.mp hq05
    exact ⟨content, rows, q, rfl, hrows, hsimulations, hq, toOption_eq_some_iff.mp hvalue⟩

theorem fivePercent_of_wholePercents (h : normalizeConfig raw = .ok config) (hwhole : WholePercents reader config) :
    MeasuresFivePercent reader config := by
  obtain ⟨blockLength, nSimulations, seed, texts, rfl, hblock, hsimulations⟩ := normalizeConfig_ok h
  intro starts lookup ctx evidence baseRunId measured q05 hconfig hmeasured hmem
  obtain ⟨run, sealedQ05, hrun, hread, -⟩ := (sealedQ05_ok_iff hconfig).mp (measured_bootstrap hmeasured hmem)
  obtain ⟨content, rows, q, hfile, hrows, -, hq, hvalue⟩ := bootstrapQ05_ok hread
  refine ⟨run, content, rows, hrun, hfile, hrows, ?_⟩
  obtain ⟨hrequested, hlabel⟩ := newest_mem hq
  obtain ⟨hlow, hhigh⟩ := quantileLabel_eq_q05_iff.mp hlabel
  have htotals : pathTotals starts (bootstrapConfig blockLength nSimulations seed texts) rows =
      (simulatedPaths starts (periodPnlSeriesFromEquity rows) blockLength.toNat nSimulations.toNat seed).map
        pathNetPnl := rfl
  have hpaths : simulatedPaths starts (periodPnlSeriesFromEquity rows) blockLength.toNat nSimulations.toNat seed ≠ [] :=
    simulatedPaths_ne_nil hsimulations
  rw [← htotals, quantile_eq_linearQuantile (by rw [htotals]; simpa using hpaths) (by linarith) (by linarith),
    Except.ok.injEq] at hvalue
  rw [← hvalue]
  cases hwhole.five with
  | inl hone =>
    obtain rfl : nSimulations = 1 := Option.some.inj hone
    have hlength : (pathTotals starts (bootstrapConfig blockLength 1 seed texts) rows).length = 1 := by
      rw [htotals]
      simp [simulatedPaths]
    rw [linearQuantile, linearQuantile, hlength, Nat.cast_one, sub_self, zero_mul, zero_mul]
  | inr hfive => rw [hfive q hrequested hlow hhigh]

end Read

end Measured

section Curve

/-- An equity curve that stands still and rises at its end. -/
def stepRows (n : ℕ) : List EquityRow :=
  (List.replicate (n + 1) (0 : Decimal) ++ [1]).map fun e => .object "" (some e)

def stepSeries (n : ℕ) : List Decimal := List.replicate n 0 ++ [1]

theorem differences_step (n : ℕ) : differences (List.replicate (n + 1) 0 ++ [1]) = stepSeries n := by
  induction n with
  | zero => simp [differences, stepSeries]
  | succ n ih =>
    have hcons : ∀ (a b : Decimal) (l : List Decimal), differences (a :: b :: l) = (b - a) :: differences (b :: l) :=
      fun a b l => rfl
    rw [List.replicate_succ, List.replicate_succ, List.cons_append, List.cons_append, hcons, ← List.cons_append,
      ← List.replicate_succ, ih, stepSeries, stepSeries, List.replicate_succ, List.cons_append, sub_self]

theorem series_stepRows (n : ℕ) : periodPnlSeriesFromEquity (stepRows n) = stepSeries n := by
  have hrows : ∀ l : List Decimal, periodPnlSeriesFromEquity (l.map fun e => .object "" (some e)) = differences l := by
    intro l
    have hfilter : (l.map fun e => EquityRow.object "" (some e)).filterMap EquityRow.point = l.map fun e => ("", e) := by
      rw [List.filterMap_map, ← List.filterMap_eq_map]
      rfl
    have hsorted : (l.map fun e => ("", e)).Pairwise fun a b => a.1 ≤ b.1 := by
      rw [List.pairwise_map]
      exact List.pairwise_of_forall fun _ _ => le_rfl
    unfold periodPnlSeriesFromEquity
    dsimp only
    rw [hfilter, List.Pairwise.insertionSort_eq hsorted, List.map_map]
    exact congrArg differences (List.map_id' l)
  rw [stepRows, hrows, differences_step]

/-- The first simulations start all blocks at the first place, the others at the last. -/
def splitStarts (m : ℕ) : RandomStarts where
  randint _ call bound := if call < 2 * m then 0 else bound
  randint_le _ call bound := by
    split_ifs
    · exact Nat.zero_le bound
    · exact le_rfl

variable {blockLength : ℕ}

theorem blockCount_succ (h : 1 ≤ blockLength) : blockCount (blockLength + 1) blockLength = 2 := by
  have heq : blockLength + 1 + blockLength - 1 = 2 * blockLength := by omega
  rw [blockCount, heq, Nat.mul_div_cancel _ h]

def block (blockLength start : ℕ) : List Decimal := ((stepSeries blockLength).drop start).take blockLength

theorem resamplePath_step (h : 1 ≤ blockLength) (start : ℕ → ℕ) :
    resamplePath (stepSeries blockLength) blockLength start =
      (block blockLength (start 0) ++ block blockLength (start 1)).take (blockLength + 1) := by
  have hlength : (stepSeries blockLength).length = blockLength + 1 := by simp [stepSeries]
  rw [resamplePath, hlength, blockCount_succ h]
  have hrange : List.range 2 = [0, 1] := rfl
  rw [hrange, List.flatMap_cons, List.flatMap_cons, List.flatMap_nil, List.append_nil]
  rfl

theorem pathNetPnl_first (start : ℕ → ℕ) (h : 1 ≤ blockLength) (h0 : start 0 = 0) (h1 : start 1 = 0) :
    pathNetPnl (resamplePath (stepSeries blockLength) blockLength start) = 0 := by
  have hblock : block blockLength 0 = List.replicate blockLength 0 := by
    rw [block, List.drop_zero, stepSeries, List.take_left' (List.length_replicate)]
  rw [resamplePath_step h, h0, h1, hblock, ← List.replicate_add, List.take_replicate, pathNetPnl, List.sum_replicate,
    smul_zero]

def lastTotal (blockLength : ℕ) : Decimal :=
  pathNetPnl ((block blockLength 1 ++ block blockLength 1).take (blockLength + 1))

theorem lastTotal_pos (h : 1 ≤ blockLength) : 0 < lastTotal blockLength := by
  obtain ⟨n, rfl⟩ := Nat.exists_eq_add_of_le' h
  have hblock : block (n + 1) 1 = List.replicate n 0 ++ [1] := by
    rw [block, stepSeries, List.replicate_succ, List.cons_append, List.drop_succ_cons, List.drop_zero,
      List.take_of_length_le (by simp)]
  have hnonneg : ∀ r ∈ (block (n + 1) 1).take 1, 0 ≤ r := by
    intro r hr
    have hmem := List.mem_of_mem_take hr
    rw [hblock] at hmem
    cases List.mem_append.mp hmem with
    | inl hzero => exact (List.eq_of_mem_replicate hzero).ge
    | inr hone =>
      obtain rfl := List.mem_singleton.mp hone
      exact zero_le_one
  have hsplit : (block (n + 1) 1 ++ block (n + 1) 1).take (n + 1 + 1) = block (n + 1) 1 ++ (block (n + 1) 1).take 1 := by
    rw [List.take_append, List.take_of_length_le (by simp [hblock])]
    simp [hblock]
  rw [lastTotal, hsplit, pathNetPnl, List.sum_append]
  have hsum : (block (n + 1) 1).sum = 1 := by simp [hblock]
  have hrest := List.sum_nonneg hnonneg
  linarith

theorem totals_step (h : 1 ≤ blockLength) (m nSimulations : ℕ) (seed : ℤ) :
    (simulatedPaths (splitStarts m) (stepSeries blockLength) blockLength nSimulations seed).map pathNetPnl =
      (List.range nSimulations).map (step m (lastTotal blockLength)) := by
  have hlength : (stepSeries blockLength).length = blockLength + 1 := by simp [stepSeries]
  rw [simulatedPaths, List.map_map, hlength, blockCount_succ h]
  apply List.map_congr_left
  intro simulation _
  have hmax : blockLength + 1 - blockLength = 1 := by omega
  dsimp only [Function.comp_def, splitStarts]
  rw [hmax, step]
  by_cases hfirst : simulation < m
  · rw [if_pos hfirst, pathNetPnl_first _ h]
    · rw [if_pos one_pos, if_pos (by omega)]
    · rw [if_pos one_pos, if_pos (by omega)]
  · rw [if_neg hfirst, resamplePath_step h, if_pos one_pos, if_neg (by omega), if_pos one_pos, if_neg (by omega)]
    rfl

end Curve

section Exact

variable {reader : Reader} {lookup : RunLookup} {ctx : EvaluationContext} {evidence : RobustnessEvidence}
  {baseRunId : String} {config : RobustnessConfig} {raw : RawBootstrapConfig} {q q05 : Decimal}

theorem measurements_bootstrap (htest : evidence.testType = "bootstrap")
    (h : bootstrapQ05FromSealedEquity lookup evidence.robustnessId ctx evidence.manifest baseRunId = .ok q05) :
    measurementsFromRobustnessManifest lookup ctx evidence baseRunId = .ok [(.bootstrap, q05)] := by
  unfold measurementsFromRobustnessManifest
  simp only [htest, bind, Except.bind, h]
  rfl

/-- Settings of an evaluation; the bootstrap is put in later. -/
def sampleContext : EvaluationContext where
  sha256 := fun _ => "digest"
  digest := fun _ => "seal"
  policyContentHash := fun _ => "policy"
  gateRunId := fun runId _ _ _ => "gate_" ++ runId
  bootstrapQ05 := fun _ _ _ _ _ => .ok none

def stepRun (content : Content) : ShownRun where
  entry :=
    { experimentId := "exp", runId := "run", attemptId := "1", strategyVersion := "v1", datasetVersion := "d1"
      costModelVersion := "1.1", benchmarkRef := "buy_and_hold_BTC", createdAt := "2024-01-01"
      artifactPath := ["exp", "run"], checksums := {}, status := .complete }
  directory := Dict.set {} ["equity.json"] content

/-- The sealed test with the config whose measured quantile is the given one. -/
def stepEvidence (config : RobustnessConfig) (q05 : Decimal) : RobustnessEvidence where
  robustnessId := "rob"
  testType := "bootstrap"
  manifest := { config := some config, bootstrapQ05 := some q05 }
  digest := ""

theorem five_of_measures (h : normalizeConfig raw = .ok config) (hmany : config.nSimulations ≠ some 1)
    (hdistinct : ∀ q ∈ requested reader config, ∀ q' ∈ requested reader config, percent q = percent q' → q = q')
    (hmeasures : MeasuresFivePercent reader config) (hq : q ∈ requested reader config) (hlow : 1 / 20 ≤ q)
    (hhigh : q < 3 / 50) : q = 1 / 20 := by
  by_contra hne
  obtain ⟨blockLength, nSimulations, seed, texts, rfl, hblock, hsimulations⟩ := normalizeConfig_ok h
  have htwo : 2 ≤ nSimulations.toNat := by
    have hone : nSimulations ≠ 1 := fun hone => hmany (congrArg some hone)
    omega
  obtain ⟨content, hcontent⟩ := reader.writable (stepRows blockLength.toNat)
  generalize hn : ⌊((nSimulations.toNat : Decimal) - 1) * (1 / 20)⌋₊ = n
  have hseries : blockLength < (stepSeries blockLength.toNat).length := by
    simp only [stepSeries, List.length_append, List.length_replicate, List.length_singleton]
    omega
  obtain ⟨stats, hstats, hget⟩ : ∃ stats, blockBootstrapPaths (splitStarts (n + 1)) (stepSeries blockLength.toNat)
      blockLength nSimulations seed (texts.map reader.number) = .ok stats ∧ _ :=
    blockBootstrapPaths_returns hblock hsimulations hseries
  have hnewest : newest quantileLabel "q05" (texts.map reader.number) = some q := by
    obtain ⟨q', hq'⟩ := Option.isSome_iff_exists.mp
      (newest_isSome_iff.mpr ⟨q, hq, quantileLabel_eq_q05_iff.mpr ⟨hlow, hhigh⟩⟩)
    obtain ⟨hmem, hlabel⟩ := newest_mem hq'
    have hpercent : percent q = percent q' :=
      (percent_eq_five_iff.mpr ⟨hlow, hhigh⟩).trans (percent_eq_five_iff.mpr (quantileLabel_eq_q05_iff.mp hlabel)).symm
    obtain rfl := hdistinct q hq q' hmem hpercent
    exact hq'
  have hpositive : 1 ≤ blockLength.toNat := by omega
  have htotals := totals_step hpositive (n + 1) nSimulations.toNat seed
  generalize hvalues : (List.range nSimulations.toNat).map (step (n + 1) (lastTotal blockLength.toNat)) = totals
    at htotals
  have htotals_ne : totals ≠ [] := by
    rw [← hvalues, ne_eq, List.map_eq_nil_iff, List.range_eq_nil]
    omega
  have hread : bootstrapQ05 reader (splitStarts (n + 1)) (some content) blockLength nSimulations seed texts =
      .ok (some (linearQuantile totals q)) := by
    have hvalue := hget "q05"
    rw [hnewest, Option.bind_some, htotals, quantile_eq_linearQuantile htotals_ne (by linarith) (by linarith)] at hvalue
    unfold bootstrapQ05 computeBootstrapFromEquityArtifact
    simp only [bind, Except.bind, pure, Except.pure, hcontent, series_stepRows, hstats, hvalue]
    rfl
  have hsealed : bootstrapQ05FromSealedEquity (fun _ => .ok (stepRun content)) "rob"
      { sampleContext with bootstrapQ05 := bootstrapQ05 reader (splitStarts (n + 1)) }
      (stepEvidence _ (linearQuantile totals q)).manifest "run" = .ok (linearQuantile totals q) :=
    (sealedQ05_ok_iff rfl).mpr ⟨stepRun content, linearQuantile totals q, rfl, hread, rfl, by simp⟩
  obtain ⟨run, content', rows, hrun, hfile, hrows, hfive⟩ := hmeasures (splitStarts (n + 1)) _ sampleContext
    (stepEvidence _ (linearQuantile totals q)) "run" _ (linearQuantile totals q) rfl
    (measurements_bootstrap rfl hsealed) List.mem_cons_self
  obtain rfl : run = stepRun content := (Except.ok.inj hrun).symm
  obtain rfl : content' = content := (Option.some.inj hfile).symm
  obtain rfl : rows = stepRows blockLength.toNat := Except.ok.inj (hrows.symm.trans hcontent)
  have hpath : pathTotals (splitStarts (n + 1)) (bootstrapConfig blockLength nSimulations seed texts)
      (stepRows blockLength.toNat) = totals := by
    rw [← htotals, ← series_stepRows]
    rfl
  rw [hpath, ← hvalues] at hfive
  have hlt := linearQuantile_step_lt (lastTotal_pos hpositive) (by norm_num) (lt_of_le_of_ne hlow (Ne.symm hne))
    (by linarith) htwo hn
  exact hlt.ne' hfive

/-- A bootstrap measures the 5 percent quantile on every curve, and has a label for each quantile, exactly when
the quantiles differ in their whole percents and none between 5 and 6 percent is requested. -/
theorem bootstrap_q05_exact_iff (h : normalizeConfig raw = .ok config) :
    MeasuresFivePercent reader config ∧ LabelsDistinct reader config ↔ WholePercents reader config := by
  constructor
  · rintro ⟨hmeasures, hlabels⟩
    have hdistinct := labelsDistinct_iff.mp hlabels
    refine ⟨hdistinct, ?_⟩
    by_cases hone : config.nSimulations = some 1
    · exact .inl hone
    · exact .inr fun q hq hlow hhigh => five_of_measures h hone hdistinct hmeasures hq hlow hhigh
  · intro hwhole
    exact ⟨fivePercent_of_wholePercents h hwhole, labelsDistinct_iff.mpr hwhole.distinct⟩

deriving instance Countable for EquityRow

theorem exists_reader (number : String → Decimal) : ∃ reader : Reader, reader.number = number := by
  obtain ⟨decode, hdecode⟩ := exists_surjective_nat (List EquityRow)
  refine ⟨⟨fun | .bytes data => .ok (decode data.length) | _ => .ok [], number, fun rows => ?_⟩, rfl⟩
  obtain ⟨n, hn⟩ := hdecode rows
  exact ⟨.bytes (List.replicate n 0), by simp [hn]⟩

def sampleNumber (text : String) : Decimal :=
  if text = "0.05" then 1 / 20 else if text = "0.059" then 59 / 1000 else if text = "0.5" then 1 / 2 else 19 / 20

/-- The default quantiles are labelled as they should be. -/
theorem bootstrap_q05_exact_default : ∃ reader config, normalizeConfig {} = .ok config ∧
    MeasuresFivePercent reader config ∧ LabelsDistinct reader config := by
  obtain ⟨reader, hnumber⟩ := exists_reader sampleNumber
  have hdefault : normalizeConfig {} = .ok (bootstrapConfig 5 1000 42 ["0.05", "0.5", "0.95"]) := rfl
  refine ⟨reader, _, hdefault, (bootstrap_q05_exact_iff hdefault).mpr ?_⟩
  have hrequested : requested reader (bootstrapConfig 5 1000 42 ["0.05", "0.5", "0.95"]) = [1 / 20, 1 / 2, 19 / 20] := by
    rw [requested, hnumber]
    decide +kernel
  refine ⟨?_, .inr ?_⟩
  · rw [hrequested]
    decide +kernel
  · rw [hrequested]
    decide +kernel

/-- 5 and 5.9 percent are both labelled `q05`. -/
theorem quantiles_share_label : ¬ ∀ (reader : Reader) (raw : RawBootstrapConfig) (config : RobustnessConfig),
    normalizeConfig raw = .ok config → MeasuresFivePercent reader config ∧ LabelsDistinct reader config := by
  intro h
  obtain ⟨reader, hnumber⟩ := exists_reader sampleNumber
  have hconfig : normalizeConfig { quantiles := some (some ["0.05", "0.059"]) } =
      .ok (bootstrapConfig 5 1000 42 ["0.05", "0.059"]) := rfl
  have hlabels := (h reader _ _ hconfig).2
  have hrequested : requested reader (bootstrapConfig 5 1000 42 ["0.05", "0.059"]) = [1 / 20, 59 / 1000] := by
    rw [requested, hnumber]
    decide +kernel
  unfold LabelsDistinct at hlabels
  rw [hrequested] at hlabels
  exact hlabels (1 / 20) (by simp) (59 / 1000) (by simp) (by norm_num) (by decide +kernel)

end Exact

end TradingBot.Research.Bootstrap
