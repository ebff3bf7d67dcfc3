import TradingBot.Library.Outcome
import TradingBot.Library.Grouping
import TradingBot.Market.Bundle
import TradingBot.Strategy.Validation

namespace TradingBot.Market.BundleFacts

open Library.Outcome
open Market.Models Market.Timeframes Market.Repository Market.Quality Market.Bundle Library
open Strategy.Models Exceptions
open Strategy.Validation (SoundCandle)

variable {r : CandleRepository} {symbol : Symbol} {timeframe : Timeframe} {evaluationTime : Time}
  {c : Candle}

def byTimeframe {α : Type} (daily weekly monthly : α) : Timeframe → α
  | .daily => daily
  | .weekly => weekly
  | .monthly => monthly

section Order

variable {l l' : List Candle}

theorem eq_of_same_members (hl : l.Pairwise fun a b => a.openTime < b.openTime)
    (hl' : l'.Pairwise fun a b => a.openTime < b.openTime) (h : ∀ c, c ∈ l ↔ c ∈ l') : l = l' := by
  have hnodup : l.Nodup := hl.imp fun hab he => absurd (congrArg CandleOf.openTime he) hab.ne
  have hnodup' : l'.Nodup := hl'.imp fun hab he => absurd (congrArg CandleOf.openTime he) hab.ne
  refine ((List.perm_ext_iff_of_nodup hnodup hnodup').mpr h).eq_of_pairwise ?_ hl hl'
  intro a b _ _ hab hba
  exact absurd (hab.trans hba) (lt_irrefl _)

theorem sortCandles_of_strict (h : l.Pairwise fun a b => a.openTime < b.openTime) : sortCandles l = l :=
  have : IsTrans Candle fun a b => a.openTime ≤ b.openTime := ⟨fun _ _ _ => le_trans⟩
  have hle : l.Pairwise fun a b => a.openTime ≤ b.openTime := h.imp le_of_lt
  List.Pairwise.insertionSort_eq hle

end Order

section Closed

theorem mem_getClosedBefore :
    c ∈ r.getClosedBefore symbol timeframe evaluationTime ↔
      c ∈ r.store ∧ c.symbol = symbol ∧ c.timeframe = timeframe ∧ c.closeTime ≤ evaluationTime := by
  rw [CandleRepository.getClosedBefore, List.mem_filter, CandleRepository.getRange_perm.mem_iff,
    CandleRepository.mem_ofSeries]
  simp [isCandleClosed, and_assoc]

theorem mem_getRange : c ∈ r.getRange symbol timeframe ↔
    c ∈ r.store ∧ c.symbol = symbol ∧ c.timeframe = timeframe := by
  rw [CandleRepository.getRange_perm.mem_iff, CandleRepository.mem_ofSeries]

theorem getRange_strict : (r.getRange symbol timeframe).Pairwise fun a b => a.openTime < b.openTime := by
  have hstore : r.store.Nodup := List.Nodup.of_map _ r.keys
  have hnodup : (r.getRange symbol timeframe).Nodup :=
    CandleRepository.getRange_perm.nodup_iff.mpr (hstore.filter _)
  refine (CandleRepository.getRange_sorted.and hnodup).imp_of_mem ?_
  rintro a b ha hb ⟨hle, hne⟩
  refine lt_of_le_of_ne hle fun heq => hne ?_
  exact CandleRepository.eq_of_openTime_eq (CandleRepository.getRange_perm.mem_iff.mp ha)
    (CandleRepository.getRange_perm.mem_iff.mp hb) heq

theorem getClosedBefore_sorted :
    (r.getClosedBefore symbol timeframe evaluationTime).Pairwise fun a b => a.openTime < b.openTime :=
  List.Pairwise.filter _ getRange_strict

end Closed

section Validation

theorem codeIf_eq_nil {condition : Bool} {code : MarketDataReasonCode} :
    codeIf condition code = [] ↔ condition = false := by
  cases condition <;> simp [codeIf]

theorem statusOf_eq_valid {codes : List MarketDataReasonCode} (h : statusOf codes = .valid) :
    codes = [] := by
  unfold statusOf at h
  split_ifs at h with _ _ hnil
  exact hnil

theorem seriesCodes_single {seen cs : List Candle}
    (h : seriesCodes symbol timeframe evaluationTime seen cs = .ok []) :
    ∀ c ∈ cs, validateSingleCandle c evaluationTime = .ok [] := by
  induction cs generalizing seen with
  | nil => simp
  | cons d cs ih =>
    obtain ⟨single, hsingle, h⟩ := except_bind_eq_ok.mp h
    obtain ⟨rest, hrest, h⟩ := except_bind_eq_ok.mp h
    simp only [pure, Except.pure, Except.ok.injEq, List.append_eq_nil_iff] at h
    obtain ⟨⟨⟨⟨⟨_, rfl⟩, _⟩, _⟩, _⟩, rfl⟩ := h
    exact List.forall_mem_cons.mpr ⟨hsingle, ih hrest⟩

theorem sound_of_validateSingleCandle (hsymbol : c.symbol = symbol) (htimeframe : c.timeframe = timeframe)
    (hclosed : c.isClosed = true) (hbefore : c.closeTime ≤ evaluationTime)
    (h : validateSingleCandle c evaluationTime = .ok []) :
    SoundCandle symbol timeframe evaluationTime c := by
  obtain ⟨codes, hcodes, h⟩ := except_bind_eq_ok.mp h
  simp only [pure, Except.pure, Except.ok.injEq] at h
  obtain ⟨rfl, _⟩ := List.append_eq_nil_iff.mp (Keyed.eraseDups_eq_nil h)
  obtain ⟨durationOk, _, hcodes⟩ := except_bind_eq_ok.mp hcodes
  simp only [pure, Except.pure, Except.ok.injEq] at hcodes
  have hnil := Keyed.eraseDups_eq_nil hcodes
  simp only [List.append_eq_nil_iff, codeIf_eq_nil, decide_eq_false_iff_not, not_or, not_le, not_lt]
    at hnil
  obtain ⟨⟨⟨⟨⟨hpositive, hvolume⟩, hhigh⟩, hlow⟩, _⟩, _⟩ := hnil
  exact ⟨hsymbol, htimeframe, hclosed, hbefore, hpositive, hhigh, ⟨hlow.1, hlow.2.1⟩, hvolume⟩

theorem timeframeReport_single {report : DataQualityReport}
    (h : timeframeReport r symbol evaluationTime timeframe = .ok report)
    (hvalid : report.status = .valid) :
    ∀ c ∈ r.getClosedBefore symbol timeframe evaluationTime,
      validateSingleCandle c evaluationTime = .ok [] := by
  obtain ⟨gaps, _, h⟩ := except_bind_eq_ok.mp h
  unfold validateSeries at h
  split_ifs at h with hempty
  · simp only [hempty]
    simp
  · obtain ⟨codes, hcodes, h⟩ := except_bind_eq_ok.mp h
    cases h
    have hnil := Keyed.eraseDups_eq_nil (statusOf_eq_valid hvalid)
    simp only [List.append_eq_nil_iff] at hnil
    obtain ⟨⟨⟨_, rfl⟩, _⟩, _⟩ := hnil
    exact fun c hc => seriesCodes_single hcodes c ((List.mem_insertionSort _).mpr hc)

theorem closeTime_of_validateSingleCandle (htimeframe : c.timeframe = .daily)
    (h : validateSingleCandle c evaluationTime = .ok []) : c.closeTime = dailyClose c.openTime := by
  obtain ⟨codes, hcodes, h⟩ := except_bind_eq_ok.mp h
  simp only [pure, Except.pure, Except.ok.injEq] at h
  obtain ⟨rfl, _⟩ := List.append_eq_nil_iff.mp (Keyed.eraseDups_eq_nil h)
  obtain ⟨durationOk, hduration, hcodes⟩ := except_bind_eq_ok.mp hcodes
  simp only [pure, Except.pure, Except.ok.injEq] at hcodes
  have hnil := Keyed.eraseDups_eq_nil hcodes
  simp only [List.append_eq_nil_iff, codeIf_eq_nil, Bool.not_eq_eq_eq_not, Bool.not_false] at hnil
  obtain ⟨_, rfl⟩ := hnil
  rw [htimeframe] at hduration
  exact of_decide_eq_true (Except.ok.inj hduration)

end Validation

section Bundle

theorem worse_eq_valid {worst status : Quality.DataQualityStatus}
    (h : (if statusPriority worst < statusPriority status then status else worst) = .valid) :
    worst = .valid ∧ status = .valid := by
  revert h
  cases worst <;> cases status <;> decide

theorem worstStatus_eq_valid {first : DataQualityReport} {rest : List DataQualityReport}
    (h : worstStatus first rest = .valid) : ∀ report ∈ first :: rest, report.status = .valid := by
  have hfold : ∀ (rest : List DataQualityReport) (status : Quality.DataQualityStatus),
      rest.foldl (fun worst report => if statusPriority worst < statusPriority report.status
        then report.status else worst) status = .valid →
      status = .valid ∧ ∀ report ∈ rest, report.status = .valid := by
    intro rest
    induction rest with
    | nil => simp
    | cons report rest ih =>
      intro status hstatus
      obtain ⟨hhead, hrest⟩ := ih _ hstatus
      obtain ⟨hstatus, hreport⟩ := worse_eq_valid hhead
      exact ⟨hstatus, List.forall_mem_cons.mpr ⟨hreport, hrest⟩⟩
  obtain ⟨hfirst, hrest⟩ := hfold rest first.status h
  exact List.forall_mem_cons.mpr ⟨hfirst, hrest⟩

structure BundleOf (r : CandleRepository) (symbol : Symbol) (evaluationTime : Time) (bundle : StrategyDataBundle) :
    Prop where
  dailyEnough : minDailyCandles ≤ (r.getClosedBefore symbol .daily evaluationTime).length
  weeklyEnough : minWeeklyCandles ≤ (r.getClosedBefore symbol .weekly evaluationTime).length
  monthlyEnough : minMonthlyCandles ≤ (r.getClosedBefore symbol .monthly evaluationTime).length
  daily : bundle.daily = toSeries (r.getClosedBefore symbol .daily evaluationTime) symbol .daily minDailyCandles
  weekly : bundle.weekly = toSeries (r.getClosedBefore symbol .weekly evaluationTime) symbol .weekly minWeeklyCandles
  monthly : bundle.monthly =
    toSeries (r.getClosedBefore symbol .monthly evaluationTime) symbol .monthly minMonthlyCandles

theorem paperBundle_single {bundle : StrategyDataBundle}
    (h : paperBundle r symbol evaluationTime = .ok bundle) (husable : bundle.isUsable) :
    (∀ timeframe, ∀ c ∈ r.getClosedBefore symbol timeframe evaluationTime,
      validateSingleCandle c evaluationTime = .ok []) ∧
    BundleOf r symbol evaluationTime bundle := by
  obtain ⟨daily, hdaily, h⟩ := except_bind_eq_ok.mp h
  obtain ⟨weekly, hweekly, h⟩ := except_bind_eq_ok.mp h
  obtain ⟨monthly, hmonthly, h⟩ := except_bind_eq_ok.mp h
  cases h
  simp only [StrategyDataBundle.isUsable, decide_eq_true_eq] at husable
  have hshort : ¬ ((r.getClosedBefore symbol .daily evaluationTime).length < minDailyCandles ∨
      (r.getClosedBefore symbol .weekly evaluationTime).length < minWeeklyCandles ∨
      (r.getClosedBefore symbol .monthly evaluationTime).length < minMonthlyCandles) := by
    intro hshort
    rw [if_pos hshort] at husable
    revert husable
    dsimp only
    split_ifs <;> simp
  rw [if_neg hshort] at husable
  simp only [not_or, not_lt] at hshort
  have hstatus := worstStatus_eq_valid husable
  refine ⟨fun timeframe => ?_, hshort.1, hshort.2.1, hshort.2.2, rfl, rfl, rfl⟩
  cases timeframe with
  | daily => exact timeframeReport_single hdaily (hstatus daily (by simp))
  | weekly => exact timeframeReport_single hweekly (hstatus weekly (by simp))
  | monthly => exact timeframeReport_single hmonthly (hstatus monthly (by simp))

theorem paperBundle_usable {bundle : StrategyDataBundle}
    (hclosed : ∀ c ∈ r.store, c.closeTime ≤ evaluationTime → c.isClosed = true)
    (h : paperBundle r symbol evaluationTime = .ok bundle) (husable : bundle.isUsable) :
    (∀ timeframe, ∀ c ∈ r.getClosedBefore symbol timeframe evaluationTime,
      SoundCandle symbol timeframe evaluationTime c) ∧
    BundleOf r symbol evaluationTime bundle := by
  obtain ⟨hsingle, hrest⟩ := paperBundle_single h husable
  refine ⟨fun timeframe c hc => ?_, hrest⟩
  obtain ⟨hstore, hsymbol, htimeframe, hbefore⟩ := mem_getClosedBefore.mp hc
  exact sound_of_validateSingleCandle hsymbol htimeframe (hclosed c hstore hbefore) hbefore
    (hsingle timeframe c hc)

end Bundle

end TradingBot.Market.BundleFacts
