import TradingBot.Market.Service
import TradingBot.Paper.SignalParity

namespace TradingBot.Paper.BundleAcceptance

open Market.Models Market.Timeframes Market.Repository Market.Quality Market.Bundle Market.BundleFacts
open Market.AggregatedBundle Strategy.Models Exceptions Library Library.Outcome
open Strategy.Validation (SoundCandle minCandlesForWarmup validateCandleSeries inFloatRange)

section Definitions

/-- The last candles of a list, or all of them if none are asked for. -/
def trailing (minimum : ℕ) (candles : List Candle) : List Candle :=
  if minimum = 0 then candles else candles.drop (candles.length - minimum)

def Contiguous (days : List Candle) : Prop :=
  days.IsChain fun a b => dayNumber b.openTime = dayNumber a.openTime + 1

structure AcceptedByStrategy (b : StrategyDataBundle) : Prop where
  notInvalid : ∀ s ∈ [(b.daily, Timeframe.daily), (b.weekly, .weekly), (b.monthly, .monthly)],
    (validateCandleSeries s.1 b.evaluationTime (some s.2)).1 ≠ .invalidData
  contiguous : Contiguous b.daily.candles
  enough : ∀ s ∈ [(b.daily, Timeframe.daily), (b.weekly, .weekly), (b.monthly, .monthly)],
    minCandlesForWarmup s.2 {} ≤ s.1.candles.length

structure SameClosed (r r' : CandleRepository) (evaluationTime : Time) : Prop where
  conflicts : r'.conflicts = r.conflicts
  closed : ∀ c : Candle, c.closeTime ≤ evaluationTime → (c ∈ r'.store ↔ c ∈ r.store)

/-- Every value of the candles that the bundle is cut from can be a finite float. -/
def Representable (closed : Timeframe → Except Exc (List Candle)) (minimum : Minimums) : Prop :=
  ∀ timeframe candles, closed timeframe = .ok candles → (trailing (minimum.of timeframe) candles).all inFloatRange

def closedCandles (r : CandleRepository) (symbol : Symbol) (evaluationTime : Time) (aggregateHigherTimeframes : Bool) :
    Timeframe → Except Exc (List Candle)
  | .daily => .ok (r.getClosedBefore symbol .daily evaluationTime)
  | timeframe => do
    let (candles, _) ← resolveHigherTimeframe r (r.getClosedBefore symbol .daily evaluationTime) symbol timeframe
      evaluationTime aggregateHigherTimeframes
    pure (filterClosedCandles candles evaluationTime)

end Definitions

section Validation

variable {symbol : Symbol} {timeframe : Timeframe} {evaluationTime : Time} {closed : List Candle}

/-- A series without a code: its candles are those of the series, and they do not overlap. -/
structure ValidSeries (symbol : Symbol) (timeframe : Timeframe) (evaluationTime : Time) (closed : List Candle) :
    Prop where
  own : ∀ c ∈ closed, c.symbol = symbol ∧ c.timeframe = timeframe
  single : ∀ c ∈ closed, validateSingleCandle c evaluationTime = .ok []
  ordered : closed.IsChain fun a b => a.closeTime < b.openTime ∧ a.openTime < b.openTime
  noGaps : detectGaps closed symbol timeframe (gapCheckTime closed evaluationTime timeframe) = .ok []

theorem seriesCodes_nil {seen cs : List Candle} (h : seriesCodes symbol timeframe evaluationTime seen cs = .ok []) :
    (∀ c ∈ cs, c.symbol = symbol ∧ c.timeframe = timeframe) ∧
      (seen.head?.toList ++ cs).IsChain fun a b => a.closeTime < b.openTime ∧ a.openTime < b.openTime := by
  induction cs generalizing seen with
  | nil =>
    refine ⟨by simp, ?_⟩
    cases seen <;> simp
  | cons c cs ih =>
    obtain ⟨single, _, h⟩ := except_bind_eq_ok.mp h
    obtain ⟨rest, hrest, h⟩ := except_bind_eq_ok.mp h
    simp only [pure, Except.pure, Except.ok.injEq, List.append_eq_nil_iff, codeIf_eq_nil] at h
    obtain ⟨⟨⟨⟨⟨hown, _⟩, _⟩, hafter⟩, hlater⟩, rfl⟩ := h
    obtain ⟨hothers, hchain⟩ := ih hrest
    refine ⟨List.forall_mem_cons.mpr ⟨by simpa using hown, hothers⟩, ?_⟩
    cases seen with
    | nil => simpa using hchain
    | cons d seen =>
      simp only [List.head?_cons, Option.any_some, decide_eq_false_iff_not, not_le] at hafter hlater
      exact List.IsChain.cons_cons ⟨hafter, hlater⟩ hchain

theorem closedReport_valid {conflicts : List CandleConflict} {report : DataQualityReport}
    (h : closedReport closed symbol timeframe evaluationTime conflicts = .ok report)
    (hvalid : report.status = .valid) : ValidSeries symbol timeframe evaluationTime closed := by
  obtain ⟨gaps, hgaps, h⟩ := except_bind_eq_ok.mp h
  unfold validateSeries at h
  split_ifs at h with hempty
  · cases h
    cases hvalid
  · obtain ⟨codes, hcodes, h⟩ := except_bind_eq_ok.mp h
    cases h
    have hnil := Keyed.eraseDups_eq_nil (statusOf_eq_valid hvalid)
    simp only [List.append_eq_nil_iff, codeIf_eq_nil, decide_eq_false_iff_not, not_not] at hnil
    obtain ⟨⟨⟨hsorted, rfl⟩, hnone⟩, _⟩ := hnil
    rw [hsorted] at hcodes
    obtain ⟨hown, hchain⟩ := seriesCodes_nil hcodes
    refine ⟨hown, seriesCodes_single hcodes, by simpa using hchain, ?_⟩
    rw [hgaps, hnone]

theorem openTime_lt_of_validateSingleCandle {c : Candle} (h : validateSingleCandle c evaluationTime = .ok []) :
    c.openTime < c.closeTime ∧ c.closeTime ≤ evaluationTime := by
  obtain ⟨codes, hcodes, h⟩ := except_bind_eq_ok.mp h
  simp only [pure, Except.pure, Except.ok.injEq] at h
  obtain ⟨rfl, hfuture⟩ := List.append_eq_nil_iff.mp (Keyed.eraseDups_eq_nil h)
  obtain ⟨durationOk, _, hcodes⟩ := except_bind_eq_ok.mp hcodes
  simp only [pure, Except.pure, Except.ok.injEq] at hcodes
  have hnil := Keyed.eraseDups_eq_nil hcodes
  simp only [List.append_eq_nil_iff, codeIf_eq_nil, decide_eq_false_iff_not, not_le] at hnil
  simp only [codeIf_eq_nil, Bool.not_eq_eq_eq_not, Bool.not_false, isCandleClosed, decide_eq_true_eq] at hfuture
  exact ⟨hnil.1.2, hfuture⟩

theorem innerGaps_nil {cs : List Candle} (h : innerGaps symbol timeframe cs = .ok []) :
    cs.IsChain fun a b => b.openTime ≤ nextOpenTime a.openTime timeframe := by
  induction cs with
  | nil => exact List.isChain_nil
  | cons current cs ih =>
    cases cs with
    | nil => exact List.isChain_singleton _
    | cons next rest =>
      obtain ⟨gaps, hgaps, h⟩ := except_bind_eq_ok.mp h
      obtain ⟨others, hothers, h⟩ := except_bind_eq_ok.mp h
      simp only [pure, Except.pure, Except.ok.injEq, List.append_eq_nil_iff] at h
      obtain ⟨rfl, rfl⟩ := h
      refine List.IsChain.cons_cons ?_ (ih hothers)
      by_contra hlate
      simp only [stepsUntil, gapsBetween, if_neg hlate] at hgaps
      obtain ⟨gap, _, hgaps⟩ := except_bind_eq_ok.mp hgaps
      obtain ⟨more, _, hgaps⟩ := except_bind_eq_ok.mp hgaps
      cases hgaps

theorem ValidSeries.strict (h : ValidSeries symbol timeframe evaluationTime closed) :
    closed.Pairwise fun a b => a.openTime < b.openTime := by
  have : IsTrans Candle fun a b => a.openTime < b.openTime := ⟨fun _ _ _ => lt_trans⟩
  exact (h.ordered.imp fun _ _ hab => hab.2).pairwise

theorem dayNumber_next {t u : ℤ} (hafter : dailyClose t < u) (hbound : u ≤ t + day) (hopen : u < dailyClose u) :
    dayNumber u = dayNumber t + 1 := by
  have hafter : t / 86400000000 * 86400000000 + 86399000000 < u := hafter
  have hbound : u ≤ t + 86400000000 := hbound
  have hopen : u < u / 86400000000 * 86400000000 + 86399000000 := hopen
  show u / 86400000000 = t / 86400000000 + 1
  omega

theorem ValidSeries.contiguous (h : ValidSeries symbol .daily evaluationTime closed) : Contiguous closed := by
  have hinner : innerGaps symbol .daily closed = .ok [] := by
    obtain ⟨inner, hinner, hgaps⟩ := except_bind_eq_ok.mp h.noGaps
    rw [sortCandles_of_strict h.strict] at hinner hgaps
    cases hlast : closed.getLast? with
    | none =>
      rw [List.getLast?_eq_none_iff] at hlast
      rw [hlast]
      rfl
    | some last =>
      simp only [hlast] at hgaps
      obtain ⟨later, _, hgaps⟩ := except_bind_eq_ok.mp hgaps
      simp only [pure, Except.pure, Except.ok.injEq, List.append_eq_nil_iff] at hgaps
      rw [hinner, hgaps.1]
  have hnext := List.isChain_iff_getElem.mp (innerGaps_nil hinner)
  refine List.isChain_iff_getElem.mpr ?_
  have hordered := List.isChain_iff_getElem.mp h.ordered
  intro i hi
  obtain ⟨hafter, _⟩ := hordered i hi
  have hbound := hnext i hi
  have hmem : closed[i] ∈ closed := List.getElem_mem _
  have hmem' : closed[i + 1] ∈ closed := List.getElem_mem _
  have hclose := closeTime_of_validateSingleCandle (h.own _ hmem).2 (h.single _ hmem)
  have hclose' := closeTime_of_validateSingleCandle (h.own _ hmem').2 (h.single _ hmem')
  obtain ⟨hopen, _⟩ := openTime_lt_of_validateSingleCandle (h.single _ hmem')
  rw [hclose] at hafter
  rw [hclose'] at hopen
  exact dayNumber_next hafter hbound hopen

end Validation

section Series

variable {symbol : Symbol} {timeframe : Timeframe} {evaluationTime : Time} {closed : List Candle} {minimum : ℕ}

theorem toSeries_candles (closed : List Candle) (symbol : Symbol) (timeframe : Timeframe) (minimum : ℕ) :
    (toSeries closed symbol timeframe minimum).candles =
      (trailing minimum closed).map fun c => { c with isClosed := true } := rfl

theorem mem_of_mem_trailing {c : Candle} (h : c ∈ trailing minimum closed) : c ∈ closed := by
  unfold trailing at h
  split_ifs at h
  · exact h
  · exact List.mem_of_mem_drop h

theorem trailing_sublist : (trailing minimum closed).Sublist closed := by
  unfold trailing
  split_ifs
  · exact List.Sublist.refl _
  · exact List.drop_sublist _ _

theorem trailing_length (hpos : minimum ≠ 0) (h : minimum ≤ closed.length) :
    (trailing minimum closed).length = minimum := by
  rw [trailing, if_neg hpos, List.length_drop]
  omega

theorem minCandlesForWarmup_pos (timeframe : Timeframe) : 0 < minCandlesForWarmup timeframe {} := by
  cases timeframe <;> decide

theorem ValidSeries.sound (h : ValidSeries symbol timeframe evaluationTime closed) {c : Candle} (hc : c ∈ closed) :
    SoundCandle symbol timeframe evaluationTime { c with isClosed := true } := by
  obtain ⟨hsymbol, htimeframe⟩ := h.own c hc
  obtain ⟨_, hbefore⟩ := openTime_lt_of_validateSingleCandle (h.single c hc)
  exact sound_of_validateSingleCandle hsymbol htimeframe rfl hbefore (h.single c hc)

theorem ValidSeries.accepted (h : ValidSeries symbol timeframe evaluationTime closed)
    (hmin : minCandlesForWarmup timeframe {} ≤ minimum) (hlen : minimum ≤ closed.length) :
    ((validateCandleSeries (toSeries closed symbol timeframe minimum) evaluationTime (some timeframe)).1 ≠
      .invalidData ↔ (trailing minimum closed).all inFloatRange) ∧
    minCandlesForWarmup timeframe {} ≤ (toSeries closed symbol timeframe minimum).candles.length := by
  have hpos := minCandlesForWarmup_pos timeframe
  have hlength : (toSeries closed symbol timeframe minimum).candles.length = minimum := by
    rw [toSeries_candles, List.length_map, trailing_length (by omega) hlen]
  have hsound : ∀ c ∈ (toSeries closed symbol timeframe minimum).candles,
      SoundCandle symbol timeframe evaluationTime c := by
    intro c hc
    obtain ⟨d, hd, rfl⟩ := List.mem_map.mp hc
    exact h.sound (mem_of_mem_trailing hd)
  have hstrict : (toSeries closed symbol timeframe minimum).candles.Pairwise fun a b => a.openTime < b.openTime :=
    List.pairwise_map.mpr (h.strict.sublist trailing_sublist)
  have hrange : (toSeries closed symbol timeframe minimum).candles.all inFloatRange =
      (trailing minimum closed).all inFloatRange := by
    rw [toSeries_candles, List.all_map]
    rfl
  obtain ⟨hok, hinvalid⟩ := Strategy.Validation.validateCandleSeries_sound hsound hstrict (by omega) (by omega)
  refine ⟨?_, by omega⟩
  rw [hrange] at hok hinvalid
  cases hall : (trailing minimum closed).all inFloatRange with
  | true =>
    have hresult := congrArg Prod.fst (hok hall)
    simp only [iff_true]
    intro hbad
    cases hbad.symm.trans hresult
  | false =>
    simp only [Bool.false_eq_true, iff_false, not_not]
    exact hinvalid hall

theorem ValidSeries.contiguous_series (h : ValidSeries symbol .daily evaluationTime closed) :
    Contiguous (toSeries closed symbol .daily minimum).candles := by
  unfold Contiguous
  rw [toSeries_candles, List.isChain_map]
  unfold trailing
  split_ifs
  · exact h.contiguous
  · exact h.contiguous.drop _

end Series

section Bundle

variable {r r' : CandleRepository} {symbol : Symbol} {evaluationTime : Time} {minimum : Minimums} {aggregate : Bool}
  {bundle : StrategyDataBundle}

theorem buildStrategyBundle_usable (h : buildStrategyBundle r symbol evaluationTime minimum aggregate = .ok bundle)
    (husable : bundle.isUsable) : ∃ closed : Timeframe → List Candle,
      (∀ timeframe, closedCandles r symbol evaluationTime aggregate timeframe = .ok (closed timeframe)) ∧
      (∀ timeframe, ValidSeries symbol timeframe evaluationTime (closed timeframe)) ∧
      (∀ timeframe, minimum.of timeframe ≤ (closed timeframe).length) ∧
      bundle.evaluationTime = evaluationTime ∧
      bundle.daily = toSeries (closed .daily) symbol .daily (minimum.of .daily) ∧
      bundle.weekly = toSeries (closed .weekly) symbol .weekly (minimum.of .weekly) ∧
      bundle.monthly = toSeries (closed .monthly) symbol .monthly (minimum.of .monthly) := by
  obtain ⟨daily, hdaily, h⟩ := except_bind_eq_ok.mp h
  obtain ⟨⟨weeks, weekConflicts⟩, hweeks, h⟩ := except_bind_eq_ok.mp h
  obtain ⟨⟨months, monthConflicts⟩, hmonths, h⟩ := except_bind_eq_ok.mp h
  obtain ⟨weekly, hweekly, h⟩ := except_bind_eq_ok.mp h
  obtain ⟨monthly, hmonthly, h⟩ := except_bind_eq_ok.mp h
  cases h
  simp only [StrategyDataBundle.isUsable, decide_eq_true_eq] at husable
  have hshort : ¬ ((r.getClosedBefore symbol .daily evaluationTime).length < minimum.daily ∨
      (filterClosedCandles weeks evaluationTime).length < minimum.weekly ∨
      (filterClosedCandles months evaluationTime).length < minimum.monthly) := by
    intro hshort
    rw [if_pos hshort] at husable
    revert husable
    dsimp only
    split_ifs <;> simp
  rw [if_neg hshort] at husable
  simp only [not_or, not_lt] at hshort
  have hstatus := worstStatus_eq_valid husable
  refine ⟨byTimeframe (r.getClosedBefore symbol .daily evaluationTime) (filterClosedCandles weeks evaluationTime)
    (filterClosedCandles months evaluationTime), fun timeframe => ?_, fun timeframe => ?_, fun timeframe => ?_,
    rfl, rfl, rfl, rfl⟩
  · cases timeframe with
    | daily => rfl
    | weekly => exact except_bind_eq_ok.mpr ⟨_, hweeks, rfl⟩
    | monthly => exact except_bind_eq_ok.mpr ⟨_, hmonths, rfl⟩
  · cases timeframe with
    | daily => exact closedReport_valid hdaily (hstatus daily (by simp))
    | weekly => exact closedReport_valid hweekly (hstatus weekly (by simp))
    | monthly => exact closedReport_valid hmonthly (hstatus monthly (by simp))
  · cases timeframe with
    | daily => exact hshort.1
    | weekly => exact hshort.2.1
    | monthly => exact hshort.2.2

theorem getClosedBefore_congr (h : SameClosed r r' evaluationTime) (timeframe : Timeframe) :
    r'.getClosedBefore symbol timeframe evaluationTime = r.getClosedBefore symbol timeframe evaluationTime := by
  refine eq_of_same_members getClosedBefore_sorted getClosedBefore_sorted fun c => ?_
  rw [mem_getClosedBefore, mem_getClosedBefore]
  constructor
  · rintro ⟨hstore, hown⟩
    exact ⟨(h.closed c hown.2.2).mp hstore, hown⟩
  · rintro ⟨hstore, hown⟩
    exact ⟨(h.closed c hown.2.2).mpr hstore, hown⟩

theorem buildStrategyBundle_congr (h : SameClosed r r' evaluationTime) :
    buildStrategyBundle r' symbol evaluationTime minimum aggregate =
      buildStrategyBundle r symbol evaluationTime minimum aggregate := by
  simp only [buildStrategyBundle, resolveHigherTimeframe, getClosedBefore_congr h, h.conflicts]

theorem forall_timeframes {p : Timeframe → Prop} : (∀ timeframe, p timeframe) ↔ p .daily ∧ p .weekly ∧ p .monthly := by
  constructor
  · exact fun h => ⟨h .daily, h .weekly, h .monthly⟩
  · rintro ⟨hdaily, hweekly, hmonthly⟩ timeframe
    cases timeframe with
    | daily => exact hdaily
    | weekly => exact hweekly
    | monthly => exact hmonthly

/-- A usable bundle of at least the strategy's minimum is contiguous, long enough and independent of later
candles, and it is accepted exactly when every value in it can be a finite float. -/
theorem usable_bundle_accepted_iff (hmin : ∀ timeframe, minCandlesForWarmup timeframe {} ≤ minimum.of timeframe)
    (h : buildStrategyBundle r symbol evaluationTime minimum aggregate = .ok bundle) (husable : bundle.isUsable) :
    (AcceptedByStrategy bundle ∧ ∀ r', SameClosed r r' evaluationTime →
      buildStrategyBundle r' symbol evaluationTime minimum aggregate = .ok bundle) ↔
    Representable (closedCandles r symbol evaluationTime aggregate) minimum := by
  obtain ⟨closed, hclosed, hvalid, hlen, htime, hdaily, hweekly, hmonthly⟩ := buildStrategyBundle_usable h husable
  have haccepted := fun timeframe => (hvalid timeframe).accepted (hmin timeframe) (hlen timeframe)
  have hrepresentable : Representable (closedCandles r symbol evaluationTime aggregate) minimum ↔
      ∀ timeframe, (trailing (minimum.of timeframe) (closed timeframe)).all inFloatRange := by
    refine forall_congr' fun timeframe => ?_
    rw [hclosed timeframe]
    simp
  have hiff : AcceptedByStrategy bundle ↔
      ∀ timeframe, (trailing (minimum.of timeframe) (closed timeframe)).all inFloatRange := by
    rw [forall_timeframes, ← (haccepted .daily).1, ← (haccepted .weekly).1, ← (haccepted .monthly).1]
    constructor
    · intro hbundle
      have hok := hbundle.notInvalid
      rw [htime, hdaily, hweekly, hmonthly] at hok
      simpa using hok
    · intro hok
      refine ⟨?_, ?_, ?_⟩
      · rw [htime, hdaily, hweekly, hmonthly]
        simpa using hok
      · rw [hdaily]
        exact (hvalid .daily).contiguous_series
      · rw [hdaily, hweekly, hmonthly]
        simpa using ⟨(haccepted .daily).2, (haccepted .weekly).2, (haccepted .monthly).2⟩
  rw [hrepresentable, ← hiff]
  exact ⟨And.left, fun hbundle => ⟨hbundle, fun r' hsame => (buildStrategyBundle_congr hsame).trans h⟩⟩

end Bundle

section Samples

open Market.Ingest (ingestNormalized)

def paperMinimums : Minimums := ⟨minDailyCandles, minWeeklyCandles, minMonthlyCandles⟩

theorem paperMinimums_enough (timeframe : Timeframe) :
    minCandlesForWarmup timeframe {} ≤ paperMinimums.of timeframe := by
  cases timeframe <;> decide

theorem three_weeks_accepted : ∃ bundle, buildStrategyBundle SignalParity.threeWeeks .BTC
      (19744 * day + 4 * second) paperMinimums false = .ok bundle ∧ AcceptedByStrategy bundle := by
  have husable : (buildStrategyBundle SignalParity.threeWeeks .BTC (19744 * day + 4 * second) paperMinimums
      false).toOption.any (·.isUsable) = true := by decide +kernel
  obtain ⟨bundle, hbundle, husable⟩ := exists_of_any husable
  refine ⟨bundle, hbundle, ((usable_bundle_accepted_iff paperMinimums_enough hbundle husable).mpr ?_).1⟩
  intro timeframe candles hcandles
  have hall : ∀ timeframe, ((closedCandles SignalParity.threeWeeks .BTC (19744 * day + 4 * second) false
      timeframe).toOption.all fun candles => (trailing (paperMinimums.of timeframe) candles).all inFloatRange) := by
    intro timeframe
    cases timeframe <;> decide +kernel
  have htimeframe := hall timeframe
  rw [hcandles] at htimeframe
  exact htimeframe

def hugeHighs : List Candle :=
  (SignalParity.flatHistory (List.replicate 21 100)).map fun c =>
    if c.timeframe = .daily then { c with high := 10 ^ 309 } else c

theorem huge_highs_rejected : ¬ ∀ (candles : List Candle) (g : Market.Ingest.Ingestion),
    ingestNormalized {} candles = .ok g → ∀ (symbol : Symbol) (evaluationTime : Time) (bundle : StrategyDataBundle),
    buildStrategyBundle g.repository symbol evaluationTime paperMinimums false = .ok bundle → bundle.isUsable →
    AcceptedByStrategy bundle := by
  intro h
  have hbad : (ingestNormalized {} hugeHighs).toOption.any (fun g =>
      (buildStrategyBundle g.repository .BTC (19744 * day + 4 * second) paperMinimums false).toOption.any fun bundle =>
        bundle.isUsable && decide ((validateCandleSeries bundle.daily bundle.evaluationTime (some .daily)).1 =
          .invalidData)) = true := by decide +kernel
  obtain ⟨g, hingest, hbundles⟩ := exists_of_any hbad
  obtain ⟨bundle, hbundle, hbad⟩ := exists_of_any hbundles
  rw [Bool.and_eq_true] at hbad
  have haccepted := h hugeHighs g hingest .BTC _ bundle hbundle hbad.1
  exact haccepted.notInvalid (bundle.daily, .daily) (by simp) (of_decide_eq_true hbad.2)

end Samples

end TradingBot.Paper.BundleAcceptance
