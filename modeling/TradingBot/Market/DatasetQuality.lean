import TradingBot.Library.Outcome
import TradingBot.Market.DatasetCatalog

namespace TradingBot.Market.DatasetQuality

open Market.Models Market.Repository Market.Quality Market.Timeframes Market.DatasetCatalog Exceptions
open Library.Outcome (except_bind_eq_ok mapError_eq_ok_iff)

section Conflicts

def detectConflict (symbol : Symbol) (timeframe : Timeframe) (seen : List Candle × List CandleConflict) (c : Candle) :
    List Candle × List CandleConflict :=
  if c.symbol ≠ symbol ∨ c.timeframe ≠ timeframe then seen
  else
    match seen.1.find? (·.key = c.key) with
    | some existing =>
      if existing ≠ c then (seen.1, seen.2 ++ [⟨c.key, existing, c⟩]) else (seen.1.replace existing c, seen.2)
    | none => (seen.1 ++ [c], seen.2)

def detectConflicts (candles : List Candle) (symbol : Symbol) (timeframe : Timeframe) : List CandleConflict :=
  ((sortCandles candles).foldl (detectConflict symbol timeframe) ([], [])).2

theorem detectConflict_distinct {symbol : Symbol} {timeframe : Timeframe} {cs known : List Candle}
    {conflicts : List CandleConflict} (h : ((known ++ cs).map Candle.key).Nodup) :
    (cs.foldl (detectConflict symbol timeframe) (known, conflicts)).2 = conflicts := by
  induction cs generalizing known with
  | nil => rfl
  | cons c cs ih =>
    rw [List.foldl_cons]
    have hfind : known.find? (·.key = c.key) = none := by
      rw [List.map_append, List.map_cons, List.nodup_append] at h
      refine List.find?_eq_none.mpr fun d hd => ?_
      simpa using h.2.2 d.key (List.mem_map_of_mem hd) c.key List.mem_cons_self
    unfold detectConflict
    rw [hfind]
    split_ifs
    · refine ih (h.sublist ?_)
      exact ((List.Sublist.refl known).append (List.sublist_cons_self c cs)).map Candle.key
    · exact ih (by rwa [List.append_assoc, List.singleton_append])

theorem detectConflicts_distinct {candles : List Candle} (h : (candles.map Candle.key).Nodup) (symbol : Symbol)
    (timeframe : Timeframe) : detectConflicts candles symbol timeframe = [] := by
  refine detectConflict_distinct ?_
  rw [List.nil_append]
  exact ((List.perm_insertionSort _ candles).map Candle.key).nodup_iff.mpr h

end Conflicts

section Evaluation

def isCandleDataStale (lastCandle : Candle) (evaluationTime : Time) : Except Exc Bool := do
  let nextOpen := nextOpenTime lastCandle.openTime lastCandle.timeframe
  let expectedNextClose ← expectedCloseTime nextOpen lastCandle.timeframe
  pure (isCandleClosed expectedNextClose evaluationTime && lastCandle.openTime < nextOpen)

def firstProblems : List Candle → Except Exc (List MarketDataReasonCode)
  | [] => .ok []
  | c :: cs => do
    let problems ← validateCandleStructure c
    if problems = [] then firstProblems cs else pure problems

def evaluatedStatus (conflicts : List CandleConflict) (gaps : List CandleGap) (stale : Bool) : DataQualityStatus :=
  if conflicts ≠ [] then .invalid
  else if gaps ≠ [] then .incomplete
  else if stale then .stale
  else .valid

def evaluateCandles (candles : List Candle) (symbol : Symbol) (timeframe : Timeframe) (evaluationTime : Time) :
    Except Exc DataQualityReport :=
  match (sortCandles candles).getLast? with
  | none => .ok { status := .incomplete, reasonCodes := [.incomplete], evaluationTime }
  | some last => do
    let problems ← firstProblems (sortCandles candles)
    if problems ≠ [] then pure { status := .invalid, reasonCodes := problems, evaluationTime }
    else do
      let conflicts := detectConflicts (sortCandles candles) symbol timeframe
      let gaps ← detectGaps (sortCandles candles) symbol timeframe evaluationTime
      let stale ← isCandleDataStale last evaluationTime
      let status := evaluatedStatus conflicts gaps stale
      pure {
        status
        reasonCodes := codeIf (conflicts ≠ []) .duplicateConflict ++ codeIf (gaps ≠ []) .gapDetected ++
          codeIf stale .stale ++ codeIf (status = .valid) .valid
        gaps
        conflicts
        evaluationTime }

def withAppendConflicts (report : DataQualityReport) (appendConflicts : List CandleConflict) : DataQualityReport :=
  if appendConflicts = [] then report
  else
    { report with
      status := .invalid
      conflicts := (report.conflicts ++ appendConflicts).eraseDups
      reasonCodes := (report.reasonCodes ++ [MarketDataReasonCode.duplicateConflict]).eraseDups }

inductive EvaluationError
  | candles (exc : Exc)
  | catalog (error : CatalogError)
deriving DecidableEq, Repr

def persistIf (persist : Bool) (db : CatalogDb) (record : DatasetQualityReportRecord) :
    Except CatalogError CatalogDb :=
  if persist then persistQualityReport db record.datasetId record [] else .ok db

def evaluateDatasetQuality (db : CatalogDb) (appendConflicts : List CandleConflict) (datasetId : String)
    (symbol : Symbol) (timeframe : Timeframe) (evaluationTime : Time) (persist : Bool) :
    Except EvaluationError (DatasetQualityReportRecord × CatalogDb) := do
  let evaluated ← (evaluateCandles (listCandles db datasetId) symbol timeframe evaluationTime).mapError .candles
  let report := withAppendConflicts evaluated appendConflicts
  let record : DatasetQualityReportRecord :=
    { datasetId
      report
      gapCount := report.gaps.length
      conflictCount := report.conflicts.length
      stale := report.status = .stale }
  let persisted ← (persistIf persist db record).mapError .catalog
  pure (record, persisted)

end Evaluation

section EvaluationFacts

def Malformed (c : Candle) : Prop := ∃ codes, codes ≠ [] ∧ validateCandleStructure c = .ok codes

theorem firstProblems_ne_nil_iff {candles : List Candle} {problems : List MarketDataReasonCode}
    (h : firstProblems candles = .ok problems) : problems ≠ [] ↔ ∃ c ∈ candles, Malformed c := by
  induction candles with
  | nil =>
    cases h
    simp
  | cons c cs ih =>
    unfold firstProblems at h
    obtain ⟨codes, hcodes, h⟩ := except_bind_eq_ok.mp h
    by_cases hnone : codes = []
    · rw [if_pos hnone] at h
      have hsound : ¬Malformed c := by
        rintro ⟨codes', hne, hcodes'⟩
        rw [hcodes] at hcodes'
        cases hcodes'
        exact hne hnone
      rw [ih h]
      simp only [List.mem_cons, exists_eq_or_imp, hsound, false_or]
    · rw [if_neg hnone] at h
      obtain rfl : codes = problems := Except.ok.inj h
      exact iff_of_true hnone ⟨c, List.mem_cons_self, codes, hnone, hcodes⟩

theorem evaluatedStatus_ne_invalid (gaps : List CandleGap) (stale : Bool) :
    evaluatedStatus [] gaps stale ≠ .invalid := by
  unfold evaluatedStatus
  split_ifs <;> simp_all

theorem evaluateCandles_invalid_iff {candles : List Candle} {symbol : Symbol} {timeframe : Timeframe}
    {evaluationTime : Time} {report : DataQualityReport} (hnodup : (candles.map Candle.key).Nodup)
    (h : evaluateCandles candles symbol timeframe evaluationTime = .ok report) :
    report.status = .invalid ↔ ∃ c ∈ candles, Malformed c := by
  have hperm : (sortCandles candles).Perm candles := List.perm_insertionSort _ candles
  have hmem : (∃ c ∈ candles, Malformed c) ↔ ∃ c ∈ sortCandles candles, Malformed c := by
    simp only [hperm.mem_iff]
  rw [hmem]
  unfold evaluateCandles at h
  cases hlast : (sortCandles candles).getLast? with
  | none =>
    rw [hlast] at h
    cases h
    rw [List.getLast?_eq_none_iff.mp hlast]
    simp
  | some last =>
    simp only [hlast] at h
    obtain ⟨problems, hproblems, h⟩ := except_bind_eq_ok.mp h
    rw [← firstProblems_ne_nil_iff hproblems]
    by_cases hnone : problems = []
    · simp only [hnone, ne_eq, not_true_eq_false, if_false] at h ⊢
      obtain ⟨gaps, -, h⟩ := except_bind_eq_ok.mp h
      obtain ⟨stale, -, h⟩ := except_bind_eq_ok.mp h
      cases h
      have hsorted : ((sortCandles candles).map Candle.key).Nodup := (hperm.map Candle.key).nodup_iff.mpr hnodup
      simp only [detectConflicts_distinct hsorted, iff_false]
      exact evaluatedStatus_ne_invalid gaps stale
    · rw [if_pos hnone] at h
      cases h
      exact iff_of_true rfl hnone

theorem evaluateDatasetQuality_invalid_iff {db db' : CatalogDb} {appendConflicts : List CandleConflict}
    {datasetId : String} {symbol : Symbol} {timeframe : Timeframe} {evaluationTime : Time} {persist : Bool}
    {record : DatasetQualityReportRecord} (hnodup : ((db.candles datasetId).map Candle.key).Nodup)
    (h : evaluateDatasetQuality db appendConflicts datasetId symbol timeframe evaluationTime persist =
      .ok (record, db')) :
    record.report.status = .invalid ↔ appendConflicts ≠ [] ∨ ∃ c ∈ db.candles datasetId, Malformed c := by
  unfold evaluateDatasetQuality at h
  obtain ⟨evaluated, hevaluated, h⟩ := except_bind_eq_ok.mp h
  rw [mapError_eq_ok_iff] at hevaluated
  obtain ⟨_, _, h⟩ := except_bind_eq_ok.mp h
  cases h
  have hperm : (listCandles db datasetId).Perm (db.candles datasetId) := List.perm_insertionSort _ _
  have hlisted : ((listCandles db datasetId).map Candle.key).Nodup := (hperm.map Candle.key).nodup_iff.mpr hnodup
  have hcandles := evaluateCandles_invalid_iff hlisted hevaluated
  simp only [hperm.mem_iff] at hcandles
  unfold withAppendConflicts
  by_cases hnone : appendConflicts = []
  · rw [if_pos hnone, hcandles]
    simp [hnone]
  · rw [if_neg hnone]
    exact iff_of_true rfl (.inl hnone)

end EvaluationFacts

end TradingBot.Market.DatasetQuality
