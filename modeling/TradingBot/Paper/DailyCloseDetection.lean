import Mathlib.Data.List.Induction
import TradingBot.Paper.MarketEvents

namespace TradingBot.Paper.DailyCloseDetection

open Market.Models Market.Repository Exceptions Paper.MarketEvents MarketEventDetector

/-- What happens to the candles and to the detector between polls. -/
inductive Step
  | ingest (c : Candle)
  | ingestLive (c : Candle) (evaluationTime : Time)
  | acknowledge (e : MarketEvent)
  | terminalFailure (e : MarketEvent)
  | clearFailure (e : MarketEvent)

structure World where
  repository : CandleRepository
  detector : MarketEventDetector

def World.step (w : World) : Step → World
  | .ingest c => { w with repository := w.repository.upsert c }
  | .ingestLive c time => { w with repository := w.repository.upsertLive c time }
  | .acknowledge e => { w with detector := w.detector.acknowledgeCompleted e }
  | .terminalFailure e => { w with detector := w.detector.acknowledgeTerminalFailed e }
  | .clearFailure e => { w with detector := w.detector.clearTerminalFailed e }

def run (symbols : List Symbol) (delay : ℕ) (steps : List Step) : World :=
  steps.foldl World.step ⟨{}, { symbols, evaluationDelaySeconds := delay }⟩

section History

def isCloseOf (symbol : Symbol) (time : Time) (e : MarketEvent) : Bool :=
  e.eventType = .dailyClosed ∧ e.symbol = symbol ∧ e.candleOpenTime = time

/-- The close event of a candle was acknowledged at some point of the run. -/
def acknowledged (symbol : Symbol) (time : Time) (steps : List Step) : Bool :=
  steps.any fun
    | .acknowledge e => isCloseOf symbol time e
    | _ => false

def terminallyFailed (symbol : Symbol) (time : Time) (steps : List Step) : Bool :=
  steps.foldl (fun failed step => match step with
    | .terminalFailure e => failed || isCloseOf symbol time e
    | .clearFailure e => failed && !isCloseOf symbol time e
    | _ => failed) false

theorem acknowledged_append (symbol : Symbol) (time : Time) (steps : List Step) (step : Step) :
    acknowledged symbol time (steps ++ [step]) = (acknowledged symbol time steps ||
      match step with
      | .acknowledge e => isCloseOf symbol time e
      | _ => false) := by
  simp [acknowledged]

theorem terminallyFailed_append (symbol : Symbol) (time : Time) (steps : List Step) (step : Step) :
    terminallyFailed symbol time (steps ++ [step]) = match step with
      | .terminalFailure e => terminallyFailed symbol time steps || isCloseOf symbol time e
      | .clearFailure e => terminallyFailed symbol time steps && !isCloseOf symbol time e
      | _ => terminallyFailed symbol time steps := by
  simp [terminallyFailed]

end History

section Trackers

theorem run_append (symbols : List Symbol) (delay : ℕ) (steps : List Step) (step : Step) :
    run symbols delay (steps ++ [step]) = (run symbols delay steps).step step := by
  simp [run]

theorem run_detector (symbols : List Symbol) (delay : ℕ) (steps : List Step) :
    (run symbols delay steps).detector.symbols = symbols ∧
      (run symbols delay steps).detector.evaluationDelaySeconds = delay := by
  induction steps using List.reverseRecOn with
  | nil => exact ⟨rfl, rfl⟩
  | append_singleton steps step ih =>
    rw [run_append]
    cases step <;> exact ih

structure Remembers (t : SymbolSeriesTracker) (symbol : Symbol) (steps : List Step) : Prop where
  ack : ∀ time, t.dailyClosedAckTime = some time → acknowledged symbol time steps
  failed : ∀ time, t.dailyClosedTerminalFailedTime = some time → terminallyFailed symbol time steps

theorem remembers_acknowledge {t : SymbolSeriesTracker} {steps : List Step} {e : MarketEvent}
    (h : Remembers t e.symbol steps) :
    Remembers (t.acknowledgeCompleted e) e.symbol (steps ++ [.acknowledge e]) := by
  refine ⟨fun time htime => ?_, fun time htime => ?_⟩
  · rw [acknowledged_append]
    by_cases hclose : e.eventType = .dailyClosed
    · simp_all [SymbolSeriesTracker.acknowledgeCompleted, isCloseOf]
    · have hold : t.dailyClosedAckTime = some time := by
        cases htype : e.eventType <;> simp_all [SymbolSeriesTracker.acknowledgeCompleted]
      simp [h.ack time hold]
  · rw [terminallyFailed_append]
    refine h.failed time ?_
    cases htype : e.eventType <;> simp_all [SymbolSeriesTracker.acknowledgeCompleted]

theorem remembers_terminalFailure {t : SymbolSeriesTracker} {steps : List Step} {e : MarketEvent}
    (h : Remembers t e.symbol steps) :
    Remembers ((t.acknowledgeTerminalFailed e).getD t) e.symbol (steps ++ [.terminalFailure e]) := by
  refine ⟨fun time htime => ?_, fun time htime => ?_⟩
  · rw [acknowledged_append, Bool.or_false]
    refine h.ack time ?_
    cases htype : e.eventType <;> simp_all [SymbolSeriesTracker.acknowledgeTerminalFailed]
  · rw [terminallyFailed_append]
    by_cases hclose : e.eventType = .dailyClosed
    · simp_all [SymbolSeriesTracker.acknowledgeTerminalFailed, isCloseOf]
    · have hold : t.dailyClosedTerminalFailedTime = some time := by
        cases htype : e.eventType <;> simp_all [SymbolSeriesTracker.acknowledgeTerminalFailed]
      simp [h.failed time hold]

theorem remembers_clearFailure {t : SymbolSeriesTracker} {steps : List Step} {e : MarketEvent}
    (h : Remembers t e.symbol steps) :
    Remembers ((t.clearTerminalFailed e).getD t) e.symbol (steps ++ [.clearFailure e]) := by
  refine ⟨fun time htime => ?_, fun time htime => ?_⟩
  · rw [acknowledged_append, Bool.or_false]
    refine h.ack time ?_
    cases htype : e.eventType <;> simp_all [SymbolSeriesTracker.clearTerminalFailed]
  · rw [terminallyFailed_append]
    by_cases hclose : e.eventType = .dailyClosed
    · simp [SymbolSeriesTracker.clearTerminalFailed, hclose] at htime
    · have hold : t.dailyClosedTerminalFailedTime = some time := by
        cases htype : e.eventType <;> simp_all [SymbolSeriesTracker.clearTerminalFailed]
      simp [h.failed time hold, isCloseOf, hclose]

theorem remembers_other {t : SymbolSeriesTracker} {symbol : Symbol} {steps : List Step} {step : Step}
    (hother : ∀ e, step = .acknowledge e ∨ step = .terminalFailure e ∨ step = .clearFailure e →
      e.symbol ≠ symbol) (h : Remembers t symbol steps) : Remembers t symbol (steps ++ [step]) := by
  refine ⟨fun time htime => ?_, fun time htime => ?_⟩
  · rw [acknowledged_append, h.ack time htime, Bool.true_or]
  · rw [terminallyFailed_append]
    have hold := h.failed time htime
    cases step with
    | clearFailure e =>
      have hne : e.symbol ≠ symbol := hother e (by simp)
      simp [hold, isCloseOf, hne]
    | _ => simp [hold]

theorem run_remembers (symbols : List Symbol) (delay : ℕ) (steps : List Step) (symbol : Symbol) :
    Remembers ((run symbols delay steps).detector.trackers symbol) symbol steps := by
  induction steps using List.reverseRecOn with
  | nil => constructor <;> intro _ h <;> cases h
  | append_singleton steps step ih =>
    rw [run_append]
    cases step with
    | ingest c => exact remembers_other (by simp) ih
    | ingestLive c time => exact remembers_other (by simp) ih
    | acknowledge e =>
      by_cases hsymbol : symbol = e.symbol
      · subst hsymbol
        simpa [World.step, acknowledgeCompleted, setTracker] using remembers_acknowledge ih
      · simpa [World.step, acknowledgeCompleted, setTracker, hsymbol] using
          remembers_other (by simpa using Ne.symm hsymbol) ih
    | terminalFailure e =>
      by_cases hsymbol : symbol = e.symbol
      · subst hsymbol
        simpa [World.step, acknowledgeTerminalFailed, setTracker] using remembers_terminalFailure ih
      · simpa [World.step, acknowledgeTerminalFailed, setTracker, hsymbol] using
          remembers_other (by simpa using Ne.symm hsymbol) ih
    | clearFailure e =>
      by_cases hsymbol : symbol = e.symbol
      · subst hsymbol
        simpa [World.step, clearTerminalFailed, setTracker] using remembers_clearFailure ih
      · simpa [World.step, clearTerminalFailed, setTracker, hsymbol] using
          remembers_other (by simpa using Ne.symm hsymbol) ih

end Trackers

section Detection

def closeEvent (c : Candle) (evaluationTime : Time) : MarketEvent :=
  { eventType := .dailyClosed, symbol := c.symbol, candleOpenTime := c.openTime
    providerReceivedAt := evaluationTime }

theorem closeEvent_mem_detectSymbol {d : MarketEventDetector} {r : CandleRepository}
    {evaluationTime : Time} {symbol : Symbol} {c : Candle} :
    closeEvent c evaluationTime ∈ d.detectSymbol r evaluationTime symbol ↔
      ∃ latest, r.getLatest symbol .daily = some latest ∧ latest.symbol = c.symbol ∧
        latest.openTime = c.openTime ∧ isCandleClosed latest.closeTime evaluationTime ∧
        latest.isClosed ∧ latest.closeTime + d.evaluationDelaySeconds * second ≤ evaluationTime ∧
        (d.trackers symbol).dailyClosedAckTime ≠ some latest.openTime ∧
        (d.trackers symbol).dailyClosedTerminalFailedTime ≠ some latest.openTime := by
  have hdaily : ∀ latest, closeEvent c evaluationTime ∈
      d.detectDaily (d.trackers symbol) latest evaluationTime ↔ latest.symbol = c.symbol ∧
        latest.openTime = c.openTime ∧ isCandleClosed latest.closeTime evaluationTime ∧
        latest.isClosed ∧ latest.closeTime + d.evaluationDelaySeconds * second ≤ evaluationTime ∧
        (d.trackers symbol).dailyClosedAckTime ≠ some latest.openTime ∧
        (d.trackers symbol).dailyClosedTerminalFailedTime ≠ some latest.openTime := by
    intro latest
    have hopen : closeEvent c evaluationTime ∉
        detectOpenOrLive (d.trackers symbol) latest evaluationTime := by
      unfold detectOpenOrLive
      split_ifs <;> simp [mem_eventIf, closeEvent]
    rw [detectDaily, List.mem_append, or_iff_right hopen, mem_eventIf]
    simp only [closeEvent, MarketEvent.mk.injEq, decide_eq_true_eq, true_and, and_true,
      eq_comm (a := c.symbol), eq_comm (a := c.openTime)]
    tauto
  have hhigher : ∀ ack failed latest type, type ≠ .dailyClosed → closeEvent c evaluationTime ∉
      detectHigherClose ack failed latest evaluationTime type := by
    intro ack failed latest type htype
    simp only [detectHigherClose, mem_eventIf, closeEvent, MarketEvent.mk.injEq, not_and]
    exact fun _ heq => absurd heq.symm htype
  simp only [detectSymbol, List.mem_append, List.mem_flatMap, Option.mem_toList, hdaily,
    hhigher _ _ _ _ (show MarketEventType.weeklyClosed ≠ .dailyClosed by decide),
    hhigher _ _ _ _ (show MarketEventType.monthlyClosed ≠ .dailyClosed by decide), and_false,
    exists_false, or_false]

def IsLatestDaily (r : CandleRepository) (c : Candle) : Prop :=
  ∀ d ∈ r.store, d.symbol = c.symbol → d.timeframe = .daily → d.openTime ≤ c.openTime

/-- In every run, a due close that was neither acknowledged nor failed is a candidate exactly while
its candle is the latest one of a watched symbol. -/
theorem close_detected_iff_latest (symbols : List Symbol) (delay : ℕ) (steps : List Step)
    (c : Candle) (evaluationTime : Time)
    (hstored : c ∈ (run symbols delay steps).repository.store) (hdaily : c.timeframe = .daily)
    (hclosed : c.isClosed) (hdue : c.closeTime + delay * second ≤ evaluationTime)
    (hack : acknowledged c.symbol c.openTime steps = false)
    (hfailed : terminallyFailed c.symbol c.openTime steps = false) :
    closeEvent c evaluationTime ∈ (run symbols delay steps).detector.detectCandidates
        (run symbols delay steps).repository evaluationTime ↔
      c.symbol ∈ symbols ∧ IsLatestDaily (run symbols delay steps).repository c := by
  obtain ⟨hsymbols, hdelay⟩ := run_detector symbols delay steps
  have hremembers := run_remembers symbols delay steps c.symbol
  rw [detectCandidates, List.mem_flatMap, hsymbols]
  constructor
  · rintro ⟨symbol, hmem, hevent⟩
    obtain ⟨latest, hlatest, hsymbol, hopen, _⟩ := closeEvent_mem_detectSymbol.mp hevent
    obtain ⟨hseries, hmax⟩ := CandleRepository.getLatest_eq_some_iff.mp hlatest
    have hsame : symbol = c.symbol := (CandleRepository.mem_ofSeries.mp hseries).2.1.symm.trans hsymbol
    refine ⟨hsame ▸ hmem, fun d hd hdsymbol hdaily => ?_⟩
    rw [← hopen]
    exact hmax d (CandleRepository.mem_ofSeries.mpr ⟨hd, hdsymbol.trans hsame.symm, hdaily⟩)
  · rintro ⟨hmem, hlatest⟩
    refine ⟨c.symbol, hmem, closeEvent_mem_detectSymbol.mpr ⟨c, ?_, rfl, rfl, ?_, hclosed, ?_, ?_, ?_⟩⟩
    · refine CandleRepository.getLatest_eq_some_iff.mpr
        ⟨CandleRepository.mem_ofSeries.mpr ⟨hstored, rfl, hdaily⟩, fun d hd => ?_⟩
      obtain ⟨hd, hdsymbol, hddaily⟩ := CandleRepository.mem_ofSeries.mp hd
      exact hlatest d hd hdsymbol hddaily
    · have hnonneg : (0 : ℤ) ≤ delay * second := mul_nonneg (Int.natCast_nonneg _) (by decide)
      simp only [isCandleClosed, decide_eq_true_eq]
      exact (le_add_of_nonneg_right hnonneg).trans hdue
    · rw [hdelay]
      exact hdue
    · intro heq
      simp [hremembers.ack _ heq] at hack
    · intro heq
      simp [hremembers.failed _ heq] at hfailed

def btcDay (n : ℕ) (isClosed : Bool) : Candle :=
  { symbol := .BTC, timeframe := .daily, openTime := n * day, closeTime := (n + 1) * day
    openPrice := 100, high := 110, low := 90, close := 105, volume := 1, isClosed }

/-- The candle closes, the next poll comes after the delay, and nothing newer has arrived. -/
theorem close_detected_alone :
    let w := run [.BTC] 5 [.ingestLive (btcDay 0 false) day, .ingestLive (btcDay 0 true) day]
    closeEvent (btcDay 0 true) (day + 5 * second) ∈
      w.detector.detectCandidates w.repository (day + 5 * second) :=
  (close_detected_iff_latest _ _ _ (btcDay 0 true) (day + 5 * second) (by decide +kernel) rfl rfl
    (by decide) (by decide) (by decide)).mpr
    ⟨by decide, fun d hd _ _ => by
      have hstore : d ∈ [btcDay 0 true] := hd
      rw [List.mem_singleton.mp hstore]⟩

def nextDayWithinDelay : List Step :=
  [.ingestLive (btcDay 0 true) day, .ingestLive (btcDay 1 false) (day + second)]

/-- The next day's candle arrives within the delay, and the due close is not a candidate. -/
theorem close_hidden_by_next_day :
    let w := run [.BTC] 5 nextDayWithinDelay
    btcDay 0 true ∈ w.repository.store ∧
      (btcDay 0 true).closeTime + 5 * second ≤ day + 5 * second ∧
      acknowledged .BTC 0 nextDayWithinDelay = false ∧
      terminallyFailed .BTC 0 nextDayWithinDelay = false ∧
      closeEvent (btcDay 0 true) (day + 5 * second) ∉
        w.detector.detectCandidates w.repository (day + 5 * second) := by
  decide +kernel

end Detection

end TradingBot.Paper.DailyCloseDetection
