import TradingBot.Backtester.Structure
import TradingBot.Strategy.EngineFacts

namespace TradingBot.Backtester.LookAhead

open Market.Models Strategy.Models Exceptions Library.Dictionary Library.Outcome
open Backtester.Lifecycle Backtester.Engine Backtester.Models Backtester.Simulation Backtester.Structure

section Definitions

structure Agree (config : BacktestConfig) (T E F : Time) (b₁ b₂ : HistoricalDataBundle) : Prop where
  daily : ∀ symbol ∈ config.symbols,
    (b₁.daily symbol).filter (·.openTime ≤ T) = (b₂.daily symbol).filter (·.openTime ≤ T)
  weekly : ∀ symbol ∈ config.symbols,
    sliceClosedCandles (b₁.weekly symbol) E = sliceClosedCandles (b₂.weekly symbol) E
  monthly : ∀ symbol ∈ config.symbols,
    sliceClosedCandles (b₁.monthly symbol) E = sliceClosedCandles (b₂.monthly symbol) E
  funding : ∀ symbol ∈ config.symbols,
    (b₁.funding symbol).filter (·.timestamp ≤ F) = (b₂.funding symbol).filter (·.timestamp ≤ F)

/-- The days up to `T` are evaluated by `E`, and the others close after it. -/
structure Horizon (config : BacktestConfig) (T E : Time) (bundle : HistoricalDataBundle) : Prop where
  evaluated : ∀ symbol ∈ config.symbols, ∀ c ∈ bundle.daily symbol, c.openTime ≤ T →
    evaluationTimeForDaily c ≤ E
  later : ∀ symbol ∈ config.symbols, ∀ c ∈ bundle.daily symbol, T < c.openTime → E < c.closeTime

variable (config : BacktestConfig) (bundle : HistoricalDataBundle)

def stepsThrough (T : Time) : List Step :=
  ((buildTimeline config bundle).filter (· ≤ T)).flatMap (daySteps config bundle)

def stepsAfter (T : Time) : List Step :=
  ((buildTimeline config bundle).filter (T < ·)).flatMap (daySteps config bundle)

/-- The state after the last day up to `T`, or the exception that ended the run before. -/
def runThrough (T : Time) : Except Exc Runtime := runSteps config bundle (stepsThrough config bundle T)

structure Records where
  equityCurve : List EquitySnapshot
  evaluations : List (StrategyEvaluationOf String)
  rejections : List RiskRejectionRecord
  closedTrades : List BacktestTrade
deriving DecidableEq

def closedBy (T : Time) (t : BacktestTrade) : Bool := t.exitTime.any (· ≤ T)

/-- The records of the days up to `T`, whose evaluations are made by `E`. -/
def recordsThrough (T E : Time) (r : BacktestResult) : Records :=
  { equityCurve := r.equityCurve.filter (·.time ≤ E)
    evaluations := r.strategyEvaluations.filter (·.evaluationTime ≤ E)
    rejections := r.riskRejections.filter (·.time ≤ T)
    closedTrades := r.trades.filter (closedBy T) }

def recordedThrough (T E : Time) (rt : Runtime) : Records :=
  { equityCurve := rt.equityCurve.filter (·.time ≤ E)
    evaluations := rt.evaluations.filter (·.evaluationTime ≤ E)
    rejections := rt.rejections.filter (·.time ≤ T)
    closedTrades := rt.closedTrades.filter (closedBy T) }

end Definitions

section Calendar

variable {config : BacktestConfig} {bundle b₁ b₂ : HistoricalDataBundle} {T E F t : Time} {symbol : String}
  {candle : CandleOf String}

theorem buildTimeline_sorted (config : BacktestConfig) (bundle : HistoricalDataBundle) :
    (buildTimeline config bundle).Pairwise (· ≤ ·) :=
  List.pairwise_insertionSort (· ≤ ·) _

theorem buildTimeline_nodup (config : BacktestConfig) (bundle : HistoricalDataBundle) :
    (buildTimeline config bundle).Nodup :=
  (List.perm_insertionSort (· ≤ ·) _).nodup_iff.mpr (List.nodup_dedup _)

theorem mem_buildTimeline : t ∈ buildTimeline config bundle ↔
    ∃ symbol ∈ config.symbols, ∃ c ∈ bundle.daily symbol, c.openTime = t := by
  simp only [buildTimeline, List.mem_insertionSort, List.mem_dedup, List.mem_flatMap, List.mem_map]

theorem filter_le_append_filter_lt {days : List Time} (hsorted : days.Pairwise (· ≤ ·)) (T : Time) :
    days.filter (· ≤ T) ++ days.filter (T < ·) = days := by
  induction days with
  | nil => rfl
  | cons t rest ih =>
    obtain ⟨hfirst, hrest⟩ := List.pairwise_cons.mp hsorted
    by_cases ht : t ≤ T
    · have hsplit := ih hrest
      simp only [List.filter_cons, ht, decide_true, if_true, not_lt.mpr ht, decide_false,
        Bool.false_eq_true, if_false, List.cons_append, hsplit]
    · have hlater : ∀ u ∈ t :: rest, T < u := by
        intro u hu
        rcases List.mem_cons.mp hu with rfl | hu
        · exact not_le.mp ht
        · exact (not_le.mp ht).trans_le (hfirst u hu)
      have hnone : (t :: rest).filter (· ≤ T) = [] := by
        rw [List.filter_eq_nil_iff]
        intro u hu
        simpa using hlater u hu
      have hall : (t :: rest).filter (T < ·) = t :: rest := by
        rw [List.filter_eq_self]
        intro u hu
        simpa using hlater u hu
      rw [hnone, hall, List.nil_append]

theorem steps_split (config : BacktestConfig) (bundle : HistoricalDataBundle) (T : Time) :
    steps config bundle = stepsThrough config bundle T ++ stepsAfter config bundle T := by
  unfold steps stepsThrough stepsAfter
  rw [← List.flatMap_append, filter_le_append_filter_lt (buildTimeline_sorted config bundle)]

theorem Agree.buildTimeline (h : Agree config T E F b₁ b₂) :
    (Simulation.buildTimeline config b₁).filter (· ≤ T) = (Simulation.buildTimeline config b₂).filter (· ≤ T) := by
  have hday : ∀ symbol ∈ config.symbols, ∀ c, c.openTime ≤ T → (c ∈ b₁.daily symbol ↔ c ∈ b₂.daily symbol) := by
    intro symbol hsymbol c hc
    have hmem : c ∈ (b₁.daily symbol).filter (·.openTime ≤ T) ↔ c ∈ (b₂.daily symbol).filter (·.openTime ≤ T) := by
      rw [h.daily symbol hsymbol]
    simpa [List.mem_filter, hc] using hmem
  have hperm : ((Simulation.buildTimeline config b₁).filter (· ≤ T)).Perm
      ((Simulation.buildTimeline config b₂).filter (· ≤ T)) := by
    rw [List.perm_ext_iff_of_nodup ((buildTimeline_nodup config b₁).filter _)
      ((buildTimeline_nodup config b₂).filter _)]
    intro t
    simp only [List.mem_filter, decide_eq_true_eq, mem_buildTimeline]
    refine and_congr_left fun ht => ?_
    constructor
    · rintro ⟨symbol, hsymbol, c, hc, rfl⟩
      exact ⟨symbol, hsymbol, c, (hday symbol hsymbol c ht).mp hc, rfl⟩
    · rintro ⟨symbol, hsymbol, c, hc, rfl⟩
      exact ⟨symbol, hsymbol, c, (hday symbol hsymbol c ht).mpr hc, rfl⟩
  exact hperm.eq_of_pairwise' ((buildTimeline_sorted config b₁).filter _)
    ((buildTimeline_sorted config b₂).filter _)

theorem candleAt_filter {candles : List (CandleOf String)} (ht : t ≤ T) :
    candleAt (candles.filter (·.openTime ≤ T)) t = candleAt candles t := by
  unfold candleAt
  rw [List.findRev?_eq_find?_reverse, List.findRev?_eq_find?_reverse, ← List.filter_reverse, List.find?_filter]
  congr 1
  funext c
  by_cases hc : c.openTime = t
  · simp [hc, ht]
  · simp [hc]

theorem priorClose_filter {candles : List (CandleOf String)} (ht : t ≤ T) :
    priorClose (candles.filter (·.openTime ≤ T)) t = priorClose candles t := by
  have hopens : ((candles.filter (·.openTime ≤ T)).map (·.openTime)).filter (· < t) =
      (candles.map (·.openTime)).filter (· < t) := by
    rw [List.filter_map, List.filter_map, List.filter_filter]
    congr 1
    refine List.filter_congr fun c _ => ?_
    by_cases hc : c.openTime < t
    · simp [hc, hc.le.trans ht]
    · simp [hc]
  unfold priorClose
  rw [hopens]
  cases hprior : ((candles.map (·.openTime)).filter (· < t)).max? with
  | none => rfl
  | some prior =>
    have hmem := List.max?_mem hprior
    have hlt : prior < t := by simpa using (List.mem_filter.mp hmem).2
    exact congrArg (Option.map _) (candleAt_filter (hlt.le.trans ht))

theorem Agree.dayCandles (h : Agree config T E F b₁ b₂) (ht : t ≤ T) :
    Simulation.dayCandles config b₁ t = Simulation.dayCandles config b₂ t := by
  funext symbol
  unfold Simulation.dayCandles
  split_ifs with hsymbol
  · rw [← candleAt_filter ht, h.daily symbol hsymbol, candleAt_filter ht]
  · rfl

theorem Agree.priorCloses (h : Agree config T E F b₁ b₂) (ht : t ≤ T) :
    Simulation.priorCloses config b₁ t = Simulation.priorCloses config b₂ t := by
  funext symbol
  unfold Simulation.priorCloses
  split_ifs with hsymbol
  · rw [← priorClose_filter ht, h.daily symbol hsymbol, priorClose_filter ht]
  · rfl

theorem Agree.daySteps (h : Agree config T E F b₁ b₂) (ht : t ≤ T) :
    Simulation.daySteps config b₁ t = Simulation.daySteps config b₂ t := by
  unfold Simulation.daySteps
  rw [h.dayCandles ht]

theorem Agree.stepsThrough (h : Agree config T E F b₁ b₂) :
    LookAhead.stepsThrough config b₁ T = LookAhead.stepsThrough config b₂ T := by
  unfold LookAhead.stepsThrough
  rw [h.buildTimeline]
  refine List.flatMap_congr fun t ht => ?_
  exact h.daySteps (by simpa using (List.mem_filter.mp ht).2)

theorem Horizon.sliceClosedCandles (h : Horizon config T E bundle) (hsymbol : symbol ∈ config.symbols)
    (ht : t ≤ E) :
    Engine.sliceClosedCandles ((bundle.daily symbol).filter (·.openTime ≤ T)) t =
      Engine.sliceClosedCandles (bundle.daily symbol) t := by
  unfold Engine.sliceClosedCandles
  rw [List.filter_filter]
  refine List.filter_congr fun c hc => ?_
  by_cases hopen : c.openTime ≤ T
  · simp [hopen]
  · have hclose := h.later symbol hsymbol c hc (not_le.mp hopen)
    have hnot : ¬ c.closeTime ≤ t := not_le.mpr (ht.trans_lt hclose)
    simp [hnot]

theorem sliceClosedCandles_of_le {candles candles' : List (CandleOf String)} (ht : t ≤ E)
    (h : sliceClosedCandles candles E = sliceClosedCandles candles' E) :
    sliceClosedCandles candles t = sliceClosedCandles candles' t := by
  have hnarrow : ∀ l : List (CandleOf String),
      sliceClosedCandles l t = sliceClosedCandles (sliceClosedCandles l E) t := by
    intro l
    unfold sliceClosedCandles
    rw [List.filter_filter]
    refine List.filter_congr fun c _ => ?_
    by_cases hc : c.closeTime ≤ t
    · simp [hc, hc.trans ht]
    · simp [hc]
  rw [hnarrow, h, ← hnarrow]

theorem Agree.fundingRates (h : Agree config T E F b₁ b₂) (hsymbol : symbol ∈ config.symbols)
    (hclose : candle.closeTime ≤ F) :
    Simulation.fundingRates config b₁ symbol candle = Simulation.fundingRates config b₂ symbol candle := by
  have hnarrow : ∀ events : List FundingEvent,
      events.filter (fun e => candle.openTime ≤ e.timestamp ∧ e.timestamp ≤ candle.closeTime) =
      (events.filter (·.timestamp ≤ F)).filter
        (fun e => candle.openTime ≤ e.timestamp ∧ e.timestamp ≤ candle.closeTime) := by
    intro events
    rw [List.filter_filter]
    refine List.filter_congr fun e _ => ?_
    by_cases he : e.timestamp ≤ candle.closeTime
    · simp [he, he.trans hclose]
    · simp [he]
  unfold Simulation.fundingRates
  cases config.fundingModel.assumedRate with
  | some rate => rfl
  | none =>
    dsimp only
    rw [hnarrow, h.funding symbol hsymbol, ← hnarrow]

end Calendar

section Steps

variable {config : BacktestConfig} {bundle b₁ b₂ : HistoricalDataBundle} {T E t : Time} {symbol : String}
  {step : Step} {rt rt' : Runtime}

/-- A step of a day up to `T`; where it carries its own evaluation time, that one is not after `E`. -/
def WithinHorizon (T E : Time) : Step → Prop
  | .trailing t evalTime _ => t ≤ T ∧ evalTime ≤ E
  | step => step.openTime ≤ T

/-- A step of a day after `T`; where it carries its own evaluation time, that one is after `E`. -/
def BeyondHorizon (T E : Time) : Step → Prop
  | .snapshot t evalTime => T < t ∧ E < evalTime
  | step => T < step.openTime

theorem mem_daySteps (h : step ∈ daySteps config bundle t) :
    ∃ symbol first, dayCandles config bundle t symbol = some first ∧
      ((∃ s, step = .fill t s ∨ step = .stop t s ∨ step = .funding t s ∨ step = .strategy t s) ∨
        (∃ s, step = .trailing t (evaluationTimeForDaily first) s) ∨
        step = .snapshot t (evaluationTimeForDaily first)) := by
  unfold daySteps at h
  cases hfirst : config.symbols.findSome? (dayCandles config bundle t) with
  | none =>
    rw [hfirst] at h
    exact absurd h List.not_mem_nil
  | some first =>
    obtain ⟨symbol, _, hcandle⟩ := List.exists_of_findSome?_eq_some hfirst
    rw [hfirst] at h
    refine ⟨symbol, first, hcandle, ?_⟩
    simp only [List.mem_append, List.mem_map, List.mem_singleton] at h
    rcases h with ((((⟨s, _, rfl⟩ | ⟨s, _, rfl⟩) | hfunding) | ⟨s, _, rfl⟩) | ⟨s, _, rfl⟩) | hsnapshot
    · exact .inl ⟨s, .inl rfl⟩
    · exact .inl ⟨s, .inr (.inl rfl)⟩
    · split_ifs at hfunding
      · obtain ⟨s, _, rfl⟩ := List.mem_map.mp hfunding
        exact .inl ⟨s, .inr (.inr (.inl rfl))⟩
      · exact absurd hfunding List.not_mem_nil
    · exact .inl ⟨s, .inr (.inr (.inr rfl))⟩
    · exact .inr (.inl ⟨s, rfl⟩)
    · exact .inr (.inr hsnapshot)

theorem Horizon.within (h : Horizon config T E bundle) (hstep : step ∈ stepsThrough config bundle T) :
    WithinHorizon T E step := by
  obtain ⟨t, ht, hstep⟩ := List.mem_flatMap.mp hstep
  have ht : t ≤ T := by simpa using (List.mem_filter.mp ht).2
  obtain ⟨symbol, first, hcandle, hkind⟩ := mem_daySteps hstep
  obtain ⟨hsymbol, hmem, rfl⟩ := dayCandles_eq_some hcandle
  rcases hkind with ⟨_, rfl | rfl | rfl | rfl⟩ | ⟨_, rfl⟩ | rfl
  · exact ht
  · exact ht
  · exact ht
  · exact ht
  · exact ⟨ht, h.evaluated symbol hsymbol first hmem ht⟩
  · exact ht

theorem Horizon.lt_evaluationTimeForDaily (h : Horizon config T E bundle) {candle : CandleOf String}
    (hcandle : dayCandles config bundle t symbol = some candle) (ht : T < t) :
    E < evaluationTimeForDaily candle := by
  obtain ⟨hsymbol, hmem, rfl⟩ := dayCandles_eq_some hcandle
  have hclose := h.later symbol hsymbol candle hmem ht
  have hbuffer : candle.closeTime ≤ evaluationTimeForDaily candle := by
    unfold evaluationTimeForDaily
    exact le_add_of_nonneg_right (by decide)
  exact hclose.trans_le hbuffer

theorem Horizon.beyond (h : Horizon config T E bundle) (hstep : step ∈ stepsAfter config bundle T) :
    BeyondHorizon T E step := by
  obtain ⟨t, ht, hstep⟩ := List.mem_flatMap.mp hstep
  have ht : T < t := by simpa using (List.mem_filter.mp ht).2
  obtain ⟨symbol, first, hcandle, hkind⟩ := mem_daySteps hstep
  rcases hkind with ⟨_, rfl | rfl | rfl | rfl⟩ | ⟨_, rfl⟩ | rfl
  · exact ht
  · exact ht
  · exact ht
  · exact ht
  · exact ht
  · exact ⟨ht, h.lt_evaluationTimeForDaily hcandle ht⟩

theorem Agree.onCandle {F : Time} (h : Agree config T E F b₁ b₂) (ht : t ≤ T)
    {work₁ work₂ : CandleOf String → Except Exc Runtime}
    (hwork : ∀ candle, Simulation.dayCandles config b₁ t symbol = some candle → work₁ candle = work₂ candle) :
    Simulation.onCandle config b₁ t symbol rt work₁ = Simulation.onCandle config b₂ t symbol rt work₂ := by
  unfold Simulation.onCandle
  rw [← h.dayCandles ht]
  cases hcandle : Simulation.dayCandles config b₁ t symbol with
  | none => rfl
  | some candle => exact hwork candle hcandle

theorem Agree.daily_slice {F : Time} (h : Agree config T E F b₁ b₂) (h₁ : Horizon config T E b₁)
    (h₂ : Horizon config T E b₂) (hsymbol : symbol ∈ config.symbols) (ht : t ≤ E) :
    sliceClosedCandles (b₁.daily symbol) t = sliceClosedCandles (b₂.daily symbol) t := by
  rw [← h₁.sliceClosedCandles hsymbol ht, h.daily symbol hsymbol, h₂.sliceClosedCandles hsymbol ht]

theorem Agree.applyStep (h : Agree config T E (E - 5 * second) b₁ b₂) (h₁ : Horizon config T E b₁)
    (h₂ : Horizon config T E b₂) (hstep : WithinHorizon T E step) (rt : Runtime) :
    Simulation.applyStep config b₁ rt step = Simulation.applyStep config b₂ rt step := by
  have hevaluated : ∀ {t symbol candle}, t ≤ T → Simulation.dayCandles config b₁ t symbol = some candle →
      symbol ∈ config.symbols ∧ evaluationTimeForDaily candle ≤ E := by
    intro t symbol candle ht hcandle
    obtain ⟨hsymbol, hmem, rfl⟩ := dayCandles_eq_some hcandle
    exact ⟨hsymbol, h₁.evaluated symbol hsymbol candle hmem ht⟩
  cases step with
  | fill t symbol =>
    have ht : t ≤ T := hstep
    refine h.onCandle ht fun candle _ => ?_
    rw [h.dayCandles ht, h.priorCloses ht]
  | stop t symbol => exact h.onCandle hstep fun _ _ => rfl
  | funding t symbol =>
    refine h.onCandle hstep fun candle hcandle => ?_
    obtain ⟨hsymbol, hevaluation⟩ := hevaluated hstep hcandle
    have hclose : candle.closeTime ≤ E - 5 * second := le_sub_iff_add_le.mpr hevaluation
    unfold applyFunding
    rw [h.fundingRates hsymbol hclose]
  | strategy t symbol =>
    refine h.onCandle hstep fun candle hcandle => ?_
    obtain ⟨hsymbol, hevaluation⟩ := hevaluated hstep hcandle
    unfold strategyAndQueue buildCandleSeries
    rw [h.daily_slice h₁ h₂ hsymbol hevaluation,
      sliceClosedCandles_of_le hevaluation (h.weekly symbol hsymbol),
      sliceClosedCandles_of_le hevaluation (h.monthly symbol hsymbol)]
  | trailing t evalTime symbol =>
    refine h.onCandle hstep.1 fun candle hcandle => ?_
    obtain ⟨hsymbol, _⟩ := hevaluated hstep.1 hcandle
    unfold Simulation.updateTrailing
    rw [h.daily_slice h₁ h₂ hsymbol hstep.2]
  | snapshot t evalTime =>
    have ht : t ≤ T := hstep
    simp only [Simulation.applyStep, takeSnapshot, h.dayCandles ht]

/-- Both runs are in the same state after the last day up to `T`. -/
theorem Agree.runThrough (h : Agree config T E (E - 5 * second) b₁ b₂) (h₁ : Horizon config T E b₁)
    (h₂ : Horizon config T E b₂) : LookAhead.runThrough config b₁ T = LookAhead.runThrough config b₂ T := by
  unfold LookAhead.runThrough runSteps
  rw [← h.stepsThrough]
  exact foldlM_congr (fun step hstep rt => h.applyStep h₁ h₂ (h₁.within hstep) rt) _

end Steps

section Records

variable {config : BacktestConfig} {bundle : HistoricalDataBundle} {T E t : Time} {symbol : String}
  {candle : CandleOf String} {step : Step} {rt rt' : Runtime}

theorem recordedThrough_closePosition {pos : SimulatedPositionOf String} {trigger : StopTriggerResult}
    (hlate : T < candle.openTime) :
    recordedThrough T E (closePosition config rt symbol candle pos trigger) = recordedThrough T E rt := by
  unfold closePosition settleTrade
  dsimp only
  cases rt.activeTrades.get? symbol with
  | none => rfl
  | some trade => simp [recordedThrough, closedBy, closeTrade, hlate]

theorem recordedThrough_checkStopExit (hlate : T < candle.openTime) (atOpen : Bool) :
    recordedThrough T E (Simulation.checkStopExit config rt symbol candle atOpen) = recordedThrough T E rt := by
  rcases checkStopExit_cases config rt symbol candle atOpen with hsame | ⟨pos, trigger, _, hclose⟩
  · rw [hsame]
  · rw [hclose, recordedThrough_closePosition hlate]

theorem recordedThrough_fillPendingAtOpen {dayCandles : String → Option (CandleOf String)}
    {priorCloses : String → Option Decimal} (hlate : T < candle.openTime)
    (h : fillPendingAtOpen config dayCandles priorCloses rt symbol candle = .ok rt') :
    recordedThrough T E rt' = recordedThrough T E rt := by
  unfold fillPendingAtOpen at h
  have hintent : ∀ rt₀ intent rt₁, recordedThrough T E rt₀ = recordedThrough T E rt →
      fillIntent config dayCandles priorCloses symbol candle rt₀ intent = .ok rt₁ →
      recordedThrough T E rt₁ = recordedThrough T E rt := by
    intro rt₀ intent rt₁ hrt₀ hfill
    rcases fillIntent_ok hfill with rfl | ⟨_, codes, rfl⟩ | ⟨_, prices, decision, accounting, _, rfl⟩
    · exact hrt₀
    · rw [← hrt₀]
      simp [recordedThrough, rejectIntent, markTerminalIntent, hlate]
    · rw [recordedThrough_checkStopExit hlate, ← hrt₀]
      rfl
  dsimp only at h
  refine foldlM_preserves hintent ?_ h
  rfl

theorem recordedThrough_applyFunding :
    recordedThrough T E (applyFunding config bundle rt symbol candle) = recordedThrough T E rt := by
  unfold applyFunding
  cases rt.positions.get? symbol with
  | none => rfl
  | some pos =>
    dsimp only
    induction fundingRates config bundle symbol candle generalizing rt with
    | nil => rfl
    | cons rate rates ih => exact ih.trans rfl

theorem recordedThrough_queueIntent {evalTime : Time} {evaluation : StrategyEvaluationOf String} :
    recordedThrough T E (queueIntent rt symbol evalTime evaluation) = recordedThrough T E rt := by
  unfold queueIntent
  split
  · dsimp only
    split_ifs
    · rfl
    · rfl
  · rfl

theorem Horizon.recordedThrough_applyStep (h : Horizon config T E bundle) (hlate : BeyondHorizon T E step)
    (hstep : applyStep config bundle rt step = .ok rt') : recordedThrough T E rt' = recordedThrough T E rt := by
  cases worked_of_applyStep hstep with
  | idle => rfl
  | fill hcandle hwork =>
    obtain ⟨_, _, rfl⟩ := dayCandles_eq_some hcandle
    exact recordedThrough_fillPendingAtOpen hlate hwork
  | stop hcandle =>
    obtain ⟨_, _, rfl⟩ := dayCandles_eq_some hcandle
    exact recordedThrough_checkStopExit hlate false
  | funding => exact recordedThrough_applyFunding
  | strategy hcandle hwork =>
    obtain ⟨evaluation, hevaluation, hwork⟩ := except_bind_eq_ok.mp hwork
    cases hwork
    have htime := (Strategy.EngineFacts.evaluate_stamped hevaluation).evaluationTime
    have hafter := h.lt_evaluationTimeForDaily hcandle hlate
    rw [← htime] at hafter
    rw [recordedThrough_queueIntent]
    simp [recordedThrough, hafter]
  | trailing _ hwork =>
    rcases updateTrailing_ok hwork with rfl | ⟨pos, updated, history, _, _, _, rfl⟩
    · rfl
    · rfl
  | snapshot => simp [recordedThrough, takeSnapshot, hlate.2]

def OpenTrades (rt : Runtime) : Prop := ∀ trade ∈ rt.activeTrades.values, trade.exitTime = none

theorem OpenTrades.checkStopExit (h : OpenTrades rt) (atOpen : Bool) :
    OpenTrades (Simulation.checkStopExit config rt symbol candle atOpen) := by
  rcases checkStopExit_cases config rt symbol candle atOpen with hsame | ⟨pos, trigger, _, hclose⟩
  · rwa [hsame]
  · rw [hclose]
    unfold closePosition settleTrade
    dsimp only
    cases rt.activeTrades.get? symbol with
    | none => exact h
    | some trade => exact fun t ht => h t (Dict.values_erase_subset _ symbol ht)

theorem OpenTrades.fillPendingAtOpen {dayCandles : String → Option (CandleOf String)}
    {priorCloses : String → Option Decimal} (h : OpenTrades rt)
    (hfill : Simulation.fillPendingAtOpen config dayCandles priorCloses rt symbol candle = .ok rt') :
    OpenTrades rt' := by
  have hintent : ∀ rt₀ intent rt₁, OpenTrades rt₀ →
      fillIntent config dayCandles priorCloses symbol candle rt₀ intent = .ok rt₁ → OpenTrades rt₁ := by
    intro rt₀ intent rt₁ hrt₀ hfill
    rcases fillIntent_ok hfill with rfl | ⟨_, codes, rfl⟩ | ⟨_, prices, decision, accounting, _, rfl⟩
    · exact hrt₀
    · exact hrt₀
    · refine OpenTrades.checkStopExit ?_ true
      exact Dict.forall_mem_values_set hrt₀ rfl
  unfold Simulation.fillPendingAtOpen at hfill
  dsimp only at hfill
  refine foldlM_preserves hintent ?_ hfill
  exact h

theorem OpenTrades.applyFunding (h : OpenTrades rt) :
    OpenTrades (Simulation.applyFunding config bundle rt symbol candle) := by
  unfold Simulation.applyFunding
  cases rt.positions.get? symbol with
  | none => exact h
  | some pos =>
    dsimp only
    induction fundingRates config bundle symbol candle generalizing rt with
    | nil => exact h
    | cons rate rates ih =>
      refine ih ?_
      unfold chargeFunding
      dsimp only [OpenTrades]
      cases htrade : rt.activeTrades.get? symbol with
      | none => exact h
      | some trade => exact Dict.forall_mem_values_set h (h trade (Dict.mem_values_of_get? htrade))

theorem OpenTrades.applyStep (h : OpenTrades rt) (hstep : Simulation.applyStep config bundle rt step = .ok rt') :
    OpenTrades rt' := by
  cases worked_of_applyStep hstep with
  | idle => exact h
  | fill _ hwork => exact h.fillPendingAtOpen hwork
  | stop => exact h.checkStopExit false
  | funding => exact h.applyFunding
  | strategy _ hwork =>
    obtain ⟨evaluation, _, hwork⟩ := except_bind_eq_ok.mp hwork
    cases hwork
    unfold queueIntent
    split
    · dsimp only
      split_ifs
      · exact h
      · exact h
    · exact h
  | trailing _ hwork =>
    rcases updateTrailing_ok hwork with rfl | ⟨_, _, _, _, _, _, rfl⟩
    · exact h
    · exact h
  | snapshot => exact h

theorem recordsThrough_buildResult (h : OpenTrades rt) {days : List Time}
    (hdays : days = [] → rt = start config) :
    recordsThrough T E (buildResult config bundle rt days) = recordedThrough T E rt := by
  cases days with
  | nil =>
    rw [hdays rfl]
    rfl
  | cons first rest =>
    have hopen : rt.activeTrades.values.filter (closedBy T) = [] := by
      rw [List.filter_eq_nil_iff]
      intro trade htrade
      simp [closedBy, h trade htrade]
    simp [recordsThrough, recordedThrough, buildResult, List.filter_append, hopen]

theorem Horizon.recordsThrough_run (h : Horizon config T E bundle) {r : BacktestResult}
    (hrun : run config bundle = .ok r) :
    ∃ rt, runThrough config bundle T = .ok rt ∧ recordsThrough T E r = recordedThrough T E rt := by
  obtain ⟨final, hfinal, hresult⟩ := except_bind_eq_ok.mp hrun
  cases hresult
  have hopen : OpenTrades final :=
    foldlM_preserves (fun _ _ _ hopen hstep => hopen.applyStep hstep)
      (fun _ htrade => absurd htrade List.not_mem_nil) hfinal
  have hempty : buildTimeline config bundle = [] → final = start config := by
    intro hnone
    rw [steps, hnone] at hfinal
    cases hfinal
    rfl
  rw [recordsThrough_buildResult hopen hempty]
  rw [steps_split config bundle T] at hfinal
  unfold runSteps at hfinal
  rw [List.foldlM_append] at hfinal
  obtain ⟨rt, hthrough, hafter⟩ := except_bind_eq_ok.mp hfinal
  refine ⟨rt, hthrough, ?_⟩
  have hstep : ∀ rt₀, ∀ step ∈ stepsAfter config bundle T, ∀ rt₁,
      recordedThrough T E rt₀ = recordedThrough T E rt → applyStep config bundle rt₀ step = .ok rt₁ →
      recordedThrough T E rt₁ = recordedThrough T E rt := by
    intro rt₀ step hmem rt₁ hrt₀ hstep
    rw [h.recordedThrough_applyStep (h.beyond hmem) hstep, hrt₀]
  exact foldlM_preserves_mem hstep rfl hafter

/-- Two histories that agree on everything up to `T`, with the funding up to the last close of these days:
both backtests are in the same state after these days, and what they report of them is the same. -/
theorem backtest_no_look_ahead (config : BacktestConfig) (T E : Time) (b₁ b₂ : HistoricalDataBundle)
    (hagree : Agree config T E (E - 5 * second) b₁ b₂) (h₁ : Horizon config T E b₁)
    (h₂ : Horizon config T E b₂) :
    runThrough config b₁ T = runThrough config b₂ T ∧
    ∀ r₁ r₂, run config b₁ = .ok r₁ → run config b₂ = .ok r₂ →
      recordsThrough T E r₁ = recordsThrough T E r₂ := by
  have hthrough := hagree.runThrough h₁ h₂
  refine ⟨hthrough, fun r₁ r₂ hr₁ hr₂ => ?_⟩
  obtain ⟨rt₁, hrt₁, hrecords₁⟩ := h₁.recordsThrough_run hr₁
  obtain ⟨rt₂, hrt₂, hrecords₂⟩ := h₂.recordsThrough_run hr₂
  rw [hthrough, hrt₂] at hrt₁
  cases hrt₁
  rw [hrecords₁, hrecords₂]

end Records

section Sample

def shortBundle : HistoricalDataBundle :=
  { sampleBundle (2 / 1000) with daily := fun symbol => ((sampleBundle 0).daily symbol).take 2 }

theorem agree_shortBundle : Agree sampleConfig day (2 * day - 1 + 5 * second) (2 * day - 1)
    (sampleBundle (1 / 1000)) shortBundle :=
  ⟨by decide +kernel, by decide +kernel, by decide +kernel, by decide +kernel⟩

theorem backtest_no_look_ahead_short :
    runThrough sampleConfig (sampleBundle (1 / 1000)) day = runThrough sampleConfig shortBundle day ∧
    (run sampleConfig (sampleBundle (1 / 1000))).toOption.isSome ∧
    (run sampleConfig shortBundle).toOption.isSome ∧
    ∀ r₁ r₂, run sampleConfig (sampleBundle (1 / 1000)) = .ok r₁ → run sampleConfig shortBundle = .ok r₂ →
      recordsThrough day (2 * day - 1 + 5 * second) r₁ = recordsThrough day (2 * day - 1 + 5 * second) r₂ := by
  have h₁ : Horizon sampleConfig day (2 * day - 1 + 5 * second) (sampleBundle (1 / 1000)) :=
    ⟨by decide +kernel, by decide +kernel⟩
  have h₂ : Horizon sampleConfig day (2 * day - 1 + 5 * second) shortBundle :=
    ⟨by decide +kernel, by decide +kernel⟩
  have hall := backtest_no_look_ahead sampleConfig day (2 * day - 1 + 5 * second) (sampleBundle (1 / 1000))
    shortBundle agree_shortBundle h₁ h₂
  exact ⟨hall.1, by decide +kernel, by decide +kernel, hall.2⟩

/-- Funding is paid during the last day, after its open: agreement up to the open alone is not enough. -/
theorem funding_after_last_open_counts :
    Agree sampleConfig (2 * day) (3 * day - 1 + 5 * second) (2 * day) (sampleBundle (1 / 1000))
      (sampleBundle (2 / 1000)) ∧
    Horizon sampleConfig (2 * day) (3 * day - 1 + 5 * second) (sampleBundle (1 / 1000)) ∧
    Horizon sampleConfig (2 * day) (3 * day - 1 + 5 * second) (sampleBundle (2 / 1000)) ∧
    (∃ c ∈ (sampleBundle (1 / 1000)).daily "BTC",
      c.openTime = 2 * day ∧ evaluationTimeForDaily c = 3 * day - 1 + 5 * second) ∧
    ∃ r₁ r₂, run sampleConfig (sampleBundle (1 / 1000)) = .ok r₁ ∧
      run sampleConfig (sampleBundle (2 / 1000)) = .ok r₂ ∧
      recordsThrough (2 * day) (3 * day - 1 + 5 * second) r₁ ≠
        recordsThrough (2 * day) (3 * day - 1 + 5 * second) r₂ := by
  refine ⟨⟨by decide +kernel, by decide +kernel, by decide +kernel, by decide +kernel⟩,
    ⟨by decide +kernel, by decide +kernel⟩, ⟨by decide +kernel, by decide +kernel⟩, by decide +kernel, ?_⟩
  have hruns : (run sampleConfig (sampleBundle (1 / 1000))).toOption.isSome ∧
      (run sampleConfig (sampleBundle (2 / 1000))).toOption.isSome ∧
      (run sampleConfig (sampleBundle (1 / 1000))).toOption.map
        (recordsThrough (2 * day) (3 * day - 1 + 5 * second)) ≠
      (run sampleConfig (sampleBundle (2 / 1000))).toOption.map
        (recordsThrough (2 * day) (3 * day - 1 + 5 * second)) := by
    decide +kernel
  obtain ⟨hsome₁, hsome₂, hne⟩ := hruns
  cases hr₁ : run sampleConfig (sampleBundle (1 / 1000)) with
  | error e =>
    rw [hr₁] at hsome₁
    cases hsome₁
  | ok r₁ =>
    cases hr₂ : run sampleConfig (sampleBundle (2 / 1000)) with
    | error e =>
      rw [hr₂] at hsome₂
      cases hsome₂
    | ok r₂ =>
      rw [hr₁, hr₂] at hne
      exact ⟨r₁, r₂, rfl, rfl, fun heq => hne (congrArg some heq)⟩

end Sample

end TradingBot.Backtester.LookAhead
