import TradingBot.Paper.EventFairness
import TradingBot.Paper.RecoveryClosure

namespace TradingBot.Paper.PollAcknowledgement

open Market.Models Market.Repository Exceptions Constraints Library.Outcome Library.Transaction
open Paper.Models Paper.Repository Paper.MarketEvents Paper.SchedulerContext Paper.Scheduler Paper.Bridge Paper.ConfigurationRecovery
open Paper.EventFairness Paper.Failures Paper.EventEffects Paper.RecoveryClosure
open MarketEventDetector MarketEventBridge

section Acknowledgement

def acknowledgeCommitted (d : MarketEventDetector) (events : List MarketEvent) : MarketEventDetector :=
  events.foldl acknowledgeCompleted d

/-- A live update cannot be recorded as terminally failed. -/
def acknowledgeTerminalFailedEvent (d : MarketEventDetector) (e : MarketEvent) :
    Except Exc MarketEventDetector :=
  match (d.trackers e.symbol).acknowledgeTerminalFailed e with
  | some tracker => .ok (d.setTracker e.symbol tracker)
  | none => .error (.valueError ("terminal failure ack unsupported for " ++ marketEventTypeValue e.eventType))

def acknowledgeTerminalFailedCommitted (d : MarketEventDetector) (events : List MarketEvent) :
    Except Exc MarketEventDetector :=
  events.foldlM acknowledgeTerminalFailedEvent d

/-- Both acknowledgements go through, and what is detected afterwards on the same candles is what was
neither acknowledged nor terminally failed. -/
def Acknowledgeable (p : MarketEventPoll) (result : BridgePollResult) : Prop :=
  ∃ d, acknowledgeTerminalFailedCommitted (acknowledgeCommitted p.detector result.eventsToAck)
      result.eventsTerminalFailed = .ok d ∧
    ∀ e, e ∈ d.detectCandidates p.candleRepository p.evaluationTime ↔
      e ∈ p.candidates ∧ e ∉ result.eventsToAck ∧ e ∉ result.eventsTerminalFailed

end Acknowledgement

section Detection

variable {r : CandleRepository} {d : MarketEventDetector} {t : SymbolSeriesTracker} {time : Time} {symbol : Symbol}
  {c c' : Candle} {type type' : MarketEventType} {e e' : MarketEvent}

/-- The series whose latest candle an event is about. -/
def seriesOf : MarketEventType → Timeframe
  | .weeklyClosed => .weekly
  | .monthlyClosed => .monthly
  | _ => .daily

def eventOf (time : Time) (c : Candle) (type : MarketEventType) : MarketEvent :=
  { eventType := type
    symbol := c.symbol
    candleOpenTime := c.openTime
    providerReceivedAt := time
    observedLow := if type = .dailyOpenAvailable ∨ type = .dailyLiveUpdate then some c.low else none }

def Due (delay : ℕ) (time : Time) (c : Candle) : MarketEventType → Prop
  | .dailyOpenAvailable | .dailyLiveUpdate => c.isClosed = false
  | .dailyClosed => isCandleClosed c.closeTime time ∧ c.isClosed ∧ c.closeTime + delay * second ≤ time
  | _ => isCandleClosed c.closeTime time ∧ c.isClosed

def Pending (t : SymbolSeriesTracker) (c : Candle) : MarketEventType → Prop
  | .dailyOpenAvailable => t.dailyOpenAckTime ≠ some c.openTime ∧ t.dailyOpenTerminalFailedTime ≠ some c.openTime
  | .dailyLiveUpdate => t.dailyOpenAckTime = some c.openTime ∧ t.dailyLiveAckLow ≠ some c.low
  | .dailyClosed => t.dailyClosedAckTime ≠ some c.openTime ∧ t.dailyClosedTerminalFailedTime ≠ some c.openTime
  | .weeklyClosed => t.weeklyClosedAckTime ≠ some c.openTime ∧ t.weeklyClosedTerminalFailedTime ≠ some c.openTime
  | .monthlyClosed =>
    t.monthlyClosedAckTime ≠ some c.openTime ∧ t.monthlyClosedTerminalFailedTime ≠ some c.openTime

theorem mem_detectOpenOrLive : e ∈ detectOpenOrLive t c time ↔ c.isClosed = false ∧
    (Pending t c .dailyOpenAvailable ∧ e = eventOf time c .dailyOpenAvailable ∨
      Pending t c .dailyLiveUpdate ∧ e = eventOf time c .dailyLiveUpdate) := by
  unfold detectOpenOrLive
  cases hclosed : c.isClosed with
  | true =>
    rw [if_neg (by simp), mem_eventIf]
    simp
  | false =>
    by_cases hseen : t.dailyOpenAckTime = some c.openTime
    · rw [if_neg (by simp [hseen]), mem_eventIf]
      simp [hseen, Pending, eventOf]
    · rw [if_pos (by simp [hseen]), mem_eventIf]
      simp [hseen, Pending, eventOf]

theorem mem_detectDaily : e ∈ d.detectDaily t c time ↔ ∃ type, seriesOf type = .daily ∧
    Due d.evaluationDelaySeconds time c type ∧ Pending t c type ∧ e = eventOf time c type := by
  have hclose : e ∈ eventIf (isCandleClosed c.closeTime time ∧ c.isClosed ∧
      c.closeTime + d.evaluationDelaySeconds * second ≤ time ∧
      t.dailyClosedAckTime ≠ some c.openTime ∧ t.dailyClosedTerminalFailedTime ≠ some c.openTime)
      ⟨.dailyClosed, c.symbol, c.openTime, time, none⟩ ↔ Due d.evaluationDelaySeconds time c .dailyClosed ∧
        Pending t c .dailyClosed ∧ e = eventOf time c .dailyClosed := by
    rw [mem_eventIf]
    simp [Due, Pending, eventOf, and_assoc]
  rw [detectDaily, List.mem_append, mem_detectOpenOrLive, hclose]
  constructor
  · rintro (⟨hdue, ⟨hpending, he⟩ | ⟨hpending, he⟩⟩ | hevent)
    · exact ⟨.dailyOpenAvailable, rfl, hdue, hpending, he⟩
    · exact ⟨.dailyLiveUpdate, rfl, hdue, hpending, he⟩
    · exact ⟨.dailyClosed, rfl, hevent⟩
  · rintro ⟨type, hseries, hdue, hpending, he⟩
    cases type with
    | dailyOpenAvailable => exact .inl ⟨hdue, .inl ⟨hpending, he⟩⟩
    | dailyLiveUpdate => exact .inl ⟨hdue, .inr ⟨hpending, he⟩⟩
    | dailyClosed => exact .inr ⟨hdue, hpending, he⟩
    | weeklyClosed => cases hseries
    | monthlyClosed => cases hseries

theorem mem_detectHigherClose {ack failed : Option Time} (hseries : seriesOf type ≠ .daily)
    (hpending : Pending t c type ↔ ack ≠ some c.openTime ∧ failed ≠ some c.openTime) (delay : ℕ) :
    e ∈ detectHigherClose ack failed c time type ↔ Due delay time c type ∧ Pending t c type ∧
      e = eventOf time c type := by
  rw [hpending, detectHigherClose, mem_eventIf]
  cases type with
  | weeklyClosed => simp [Due, eventOf, and_assoc]
  | monthlyClosed => simp [Due, eventOf, and_assoc]
  | dailyOpenAvailable => exact absurd rfl hseries
  | dailyLiveUpdate => exact absurd rfl hseries
  | dailyClosed => exact absurd rfl hseries

theorem mem_detectSymbol : e ∈ d.detectSymbol r time symbol ↔ ∃ type c, r.getLatest symbol (seriesOf type) = some c ∧
    Due d.evaluationDelaySeconds time c type ∧ Pending (d.trackers symbol) c type ∧ e = eventOf time c type := by
  simp only [detectSymbol, List.mem_append, List.mem_flatMap, Option.mem_toList, mem_detectDaily]
  constructor
  · rintro ((⟨c, hc, type, hseries, hevent⟩ | ⟨c, hc, hevent⟩) | ⟨c, hc, hevent⟩)
    · exact ⟨type, c, hseries ▸ hc, hevent⟩
    · exact ⟨.weeklyClosed, c, hc, (mem_detectHigherClose (by decide) Iff.rfl _).mp hevent⟩
    · exact ⟨.monthlyClosed, c, hc, (mem_detectHigherClose (by decide) Iff.rfl _).mp hevent⟩
  · rintro ⟨type, c, hc, hevent⟩
    cases type with
    | dailyOpenAvailable => exact .inl (.inl ⟨c, hc, _, rfl, hevent⟩)
    | dailyLiveUpdate => exact .inl (.inl ⟨c, hc, _, rfl, hevent⟩)
    | dailyClosed => exact .inl (.inl ⟨c, hc, _, rfl, hevent⟩)
    | weeklyClosed => exact .inl (.inr ⟨c, hc, (mem_detectHigherClose (by decide) Iff.rfl _).mpr hevent⟩)
    | monthlyClosed => exact .inr ⟨c, hc, (mem_detectHigherClose (by decide) Iff.rfl _).mpr hevent⟩

theorem nodup_eventIf (condition : Bool) (e : MarketEvent) : (eventIf condition e).Nodup := by
  cases condition <;> simp [eventIf]

theorem nodup_detectDaily (d : MarketEventDetector) (t : SymbolSeriesTracker) (c : Candle) (time : Time) :
    (d.detectDaily t c time).Nodup := by
  unfold detectDaily
  refine List.Nodup.append ?_ (nodup_eventIf _ _) fun e hopen hclose => ?_
  · unfold detectOpenOrLive
    split_ifs
    · exact nodup_eventIf _ _
    · exact nodup_eventIf _ _
  · obtain ⟨_, rfl⟩ := mem_eventIf.mp hclose
    obtain ⟨_, ⟨_, h⟩ | ⟨_, h⟩⟩ := mem_detectOpenOrLive.mp hopen
    · cases congrArg MarketEvent.eventType h
    · cases congrArg MarketEvent.eventType h

theorem nodup_detectSymbol (d : MarketEventDetector) (r : CandleRepository) (time : Time) (symbol : Symbol) :
    (d.detectSymbol r time symbol).Nodup := by
  have hlatest : ∀ {o : Option Candle} {detect : Candle → List MarketEvent}, (∀ c, (detect c).Nodup) →
      (o.toList.flatMap detect).Nodup := by
    intro o detect h
    cases o with
    | none => exact List.nodup_nil
    | some c => simpa using h c
  have hdaily : ∀ {o : Option Candle} {t e}, e ∈ o.toList.flatMap (d.detectDaily t · time) →
      seriesOf e.eventType = .daily := by
    intro o t e he
    obtain ⟨c, _, he⟩ := List.mem_flatMap.mp he
    obtain ⟨type, hseries, _, _, rfl⟩ := mem_detectDaily.mp he
    exact hseries
  have hhigher : ∀ {o : Option Candle} {ack failed type e},
      e ∈ o.toList.flatMap (detectHigherClose ack failed · time type) → e.eventType = type := by
    intro o ack failed type e he
    obtain ⟨c, _, he⟩ := List.mem_flatMap.mp he
    obtain ⟨_, rfl⟩ := mem_eventIf.mp he
    rfl
  refine List.Nodup.append (List.Nodup.append ?_ ?_ fun e he he' => ?_) ?_ fun e he he' => ?_
  · exact hlatest fun c => nodup_detectDaily d _ c time
  · exact hlatest fun c => nodup_eventIf _ _
  · have hseries := hdaily he
    rw [hhigher he'] at hseries
    cases hseries
  · exact hlatest fun c => nodup_eventIf _ _
  · have htype := hhigher he'
    rcases List.mem_append.mp he with he | he
    · have hseries := hdaily he
      rw [htype] at hseries
      cases hseries
    · rw [hhigher he] at htype
      cases htype

theorem pending_acknowledgeCompleted (h : Pending t c type) (hsame : seriesOf type' = seriesOf type → c' = c) :
    Pending (t.acknowledgeCompleted (eventOf time c type)) c' type' ↔ Pending t c' type' ∧ type' ≠ type := by
  cases type with
  | dailyOpenAvailable =>
    cases type' <;> simp_all [SymbolSeriesTracker.acknowledgeCompleted, Pending, eventOf, seriesOf]
  | dailyLiveUpdate =>
    cases type' <;> simp_all [SymbolSeriesTracker.acknowledgeCompleted, Pending, eventOf, seriesOf]
  | dailyClosed =>
    cases type' <;> simp_all [SymbolSeriesTracker.acknowledgeCompleted, Pending, eventOf, seriesOf]
  | weeklyClosed =>
    cases type' <;> simp_all [SymbolSeriesTracker.acknowledgeCompleted, Pending, eventOf, seriesOf]
  | monthlyClosed =>
    cases type' <;> simp_all [SymbolSeriesTracker.acknowledgeCompleted, Pending, eventOf, seriesOf]

theorem pending_acknowledgeTerminalFailed (h : Pending t c type)
    (hsame : seriesOf type' = seriesOf type → c' = c) {t' : SymbolSeriesTracker}
    (ht : t.acknowledgeTerminalFailed (eventOf time c type) = some t') :
    Pending t' c' type' ↔ Pending t c' type' ∧ type' ≠ type := by
  cases type with
  | dailyOpenAvailable =>
    cases ht
    cases type' <;> simp_all [Pending, eventOf, seriesOf]
  | dailyLiveUpdate => cases ht
  | dailyClosed =>
    cases ht
    cases type' <;> simp_all [Pending, eventOf, seriesOf]
  | weeklyClosed =>
    cases ht
    cases type' <;> simp_all [Pending, eventOf, seriesOf]
  | monthlyClosed =>
    cases ht
    cases type' <;> simp_all [Pending, eventOf, seriesOf]

theorem symbol_of_getLatest {timeframe : Timeframe} (h : r.getLatest symbol timeframe = some c) :
    c.symbol = symbol :=
  (CandleRepository.mem_ofSeries.mp (CandleRepository.getLatest_eq_some_iff.mp h).1).2.1

theorem symbol_of_detected (h : e ∈ d.detectSymbol r time symbol) : e.symbol = symbol := by
  obtain ⟨type, c, hlatest, _, _, rfl⟩ := mem_detectSymbol.mp h
  exact symbol_of_getLatest hlatest

def Settles (d d' : MarketEventDetector) (e : MarketEvent) : Prop :=
  d'.symbols = d.symbols ∧ d'.evaluationDelaySeconds = d.evaluationDelaySeconds ∧
    (∀ symbol ≠ e.symbol, d'.trackers symbol = d.trackers symbol) ∧
    ∀ c c' type', e = eventOf e.providerReceivedAt c e.eventType → Pending (d.trackers e.symbol) c e.eventType →
      (seriesOf type' = seriesOf e.eventType → c' = c) →
      (Pending (d'.trackers e.symbol) c' type' ↔ Pending (d.trackers e.symbol) c' type' ∧ type' ≠ e.eventType)

theorem mem_candidates_of_settles {d' : MarketEventDetector} (h : Settles d d' e)
    (he : e ∈ d.detectCandidates r time) :
    e' ∈ d'.detectCandidates r time ↔ e' ∈ d.detectCandidates r time ∧ e' ≠ e := by
  obtain ⟨hsymbols, hdelay, hother, hpending⟩ := h
  obtain ⟨symbol, hsymbol, hdetected⟩ := List.mem_flatMap.mp he
  obtain ⟨type, c, hlatest, hdue, hseen, hevent⟩ := mem_detectSymbol.mp hdetected
  have hname : e.symbol = symbol := symbol_of_detected hdetected
  have htype : e.eventType = type := by rw [hevent]; rfl
  have htime : e.providerReceivedAt = time := by rw [hevent]; rfl
  have hone : ∀ s, e' ∈ d'.detectSymbol r time s ↔ e' ∈ d.detectSymbol r time s ∧ e' ≠ e := by
    intro s
    by_cases hs : s = symbol
    · subst hs
      rw [mem_detectSymbol, mem_detectSymbol, hdelay]
      have hpending' : ∀ type' c', r.getLatest s (seriesOf type') = some c' →
          (Pending (d'.trackers s) c' type' ↔ Pending (d.trackers s) c' type' ∧ type' ≠ type) := by
        intro type' c' hlatest'
        rw [← hname, ← htype]
        refine hpending c c' type' (by rw [htime, htype]; exact hevent) (by rw [hname, htype]; exact hseen) ?_
        intro hseries
        rw [htype] at hseries
        rw [hseries, hlatest] at hlatest'
        exact (Option.some.inj hlatest').symm
      constructor
      · rintro ⟨type', c', hlatest', hdue', hseen', rfl⟩
        obtain ⟨hseen', hne⟩ := (hpending' type' c' hlatest').mp hseen'
        refine ⟨⟨type', c', hlatest', hdue', hseen', rfl⟩, fun heq => hne ?_⟩
        exact (congrArg MarketEvent.eventType heq).trans htype
      · rintro ⟨⟨type', c', hlatest', hdue', hseen', rfl⟩, hne⟩
        refine ⟨type', c', hlatest', hdue', (hpending' type' c' hlatest').mpr ⟨hseen', fun heq => hne ?_⟩, rfl⟩
        subst heq
        rw [hlatest] at hlatest'
        cases hlatest'
        exact hevent.symm
    · have hsame : d'.detectSymbol r time s = d.detectSymbol r time s := by
        unfold detectSymbol detectDaily
        rw [hother s (by rw [hname]; exact hs), hdelay]
      rw [hsame]
      refine (and_iff_left_of_imp fun hmem heq => hs ?_).symm
      rw [← symbol_of_detected hmem, heq, hname]
  unfold detectCandidates
  rw [List.mem_flatMap, List.mem_flatMap, hsymbols]
  constructor
  · rintro ⟨s, hs, hmem⟩
    obtain ⟨hmem, hne⟩ := (hone s).mp hmem
    exact ⟨⟨s, hs, hmem⟩, hne⟩
  · rintro ⟨⟨s, hs, hmem⟩, hne⟩
    exact ⟨s, hs, (hone s).mpr ⟨hmem, hne⟩⟩

theorem settles_acknowledgeCompleted (d : MarketEventDetector) (e : MarketEvent) :
    Settles d (d.acknowledgeCompleted e) e := by
  refine ⟨rfl, rfl, fun symbol hne => by simp [acknowledgeCompleted, setTracker, hne], ?_⟩
  intro c c' type' he hpending hsame
  have htracker : (d.acknowledgeCompleted e).trackers e.symbol =
      (d.trackers e.symbol).acknowledgeCompleted (eventOf e.providerReceivedAt c e.eventType) := by
    rw [← he]
    simp [acknowledgeCompleted, setTracker]
  rw [htracker]
  exact pending_acknowledgeCompleted hpending hsame

theorem settles_acknowledgeTerminalFailed {d' : MarketEventDetector}
    (h : acknowledgeTerminalFailedEvent d e = .ok d') : Settles d d' e := by
  unfold acknowledgeTerminalFailedEvent at h
  split at h
  · rename_i tracker htracker
    cases h
    refine ⟨rfl, rfl, fun symbol hne => by simp [setTracker, hne], ?_⟩
    intro c c' type' he hpending hsame
    have hevent : (d.trackers e.symbol).acknowledgeTerminalFailed
        (eventOf e.providerReceivedAt c e.eventType) = some tracker := by
      rw [← he]
      exact htracker
    have hset : (d.setTracker e.symbol tracker).trackers e.symbol = tracker := by simp [setTracker]
    rw [hset]
    exact pending_acknowledgeTerminalFailed hpending hsame hevent
  · cases h

theorem acknowledgeTerminalFailedEvent_ok (d : MarketEventDetector) (he : e.eventType ≠ .dailyLiveUpdate) :
    ∃ d', acknowledgeTerminalFailedEvent d e = .ok d' := by
  unfold acknowledgeTerminalFailedEvent SymbolSeriesTracker.acknowledgeTerminalFailed
  cases htype : e.eventType with
  | dailyLiveUpdate => exact absurd htype he
  | dailyOpenAvailable => exact ⟨_, rfl⟩
  | dailyClosed => exact ⟨_, rfl⟩
  | weeklyClosed => exact ⟨_, rfl⟩
  | monthlyClosed => exact ⟨_, rfl⟩

end Detection

section Lists

variable {r : CandleRepository} {d : MarketEventDetector} {time : Time} {events : List MarketEvent} {e' : MarketEvent}

theorem mem_candidates_acknowledged (hnodup : events.Nodup) (h : ∀ e ∈ events, e ∈ d.detectCandidates r time) :
    e' ∈ (acknowledgeCommitted d events).detectCandidates r time ↔
      e' ∈ d.detectCandidates r time ∧ e' ∉ events := by
  unfold acknowledgeCommitted
  induction events generalizing d with
  | nil => simp
  | cons e events ih =>
    obtain ⟨hnew, hnodup⟩ := List.nodup_cons.mp hnodup
    have hstep : ∀ e', e' ∈ (d.acknowledgeCompleted e).detectCandidates r time ↔
        e' ∈ d.detectCandidates r time ∧ e' ≠ e := fun e' =>
      mem_candidates_of_settles (settles_acknowledgeCompleted d e) (h e List.mem_cons_self)
    have hrest : ∀ x ∈ events, x ∈ (d.acknowledgeCompleted e).detectCandidates r time := fun x hx =>
      (hstep x).mpr ⟨h x (List.mem_cons_of_mem e hx), fun heq => hnew (heq ▸ hx)⟩
    rw [List.foldl_cons, ih hnodup hrest, hstep, List.mem_cons, not_or, and_assoc]

theorem acknowledgeTerminalFailedCommitted_ok_iff : (∃ d', acknowledgeTerminalFailedCommitted d events = .ok d') ↔
    ∀ e ∈ events, e.eventType ≠ .dailyLiveUpdate := by
  unfold acknowledgeTerminalFailedCommitted
  induction events generalizing d with
  | nil => simp [pure, Except.pure]
  | cons e events ih =>
    rw [List.foldlM_cons, List.forall_mem_cons]
    by_cases htype : e.eventType = .dailyLiveUpdate
    · have hfails : ∃ exc, acknowledgeTerminalFailedEvent d e = .error exc := by
        unfold acknowledgeTerminalFailedEvent SymbolSeriesTracker.acknowledgeTerminalFailed
        simp [htype]
      obtain ⟨exc, hexc⟩ := hfails
      simp [hexc, htype, bind, Except.bind]
    · obtain ⟨d₁, hd₁⟩ := acknowledgeTerminalFailedEvent_ok d htype
      simp only [hd₁, bind, Except.bind]
      rw [ih]
      simp [htype]

theorem mem_candidates_terminalFailed {d' : MarketEventDetector} (hnodup : events.Nodup)
    (h : ∀ e ∈ events, e ∈ d.detectCandidates r time)
    (hok : acknowledgeTerminalFailedCommitted d events = .ok d') :
    e' ∈ d'.detectCandidates r time ↔ e' ∈ d.detectCandidates r time ∧ e' ∉ events := by
  unfold acknowledgeTerminalFailedCommitted at hok
  induction events generalizing d with
  | nil =>
    cases hok
    simp
  | cons e events ih =>
    obtain ⟨hnew, hnodup⟩ := List.nodup_cons.mp hnodup
    rw [List.foldlM_cons] at hok
    cases hfirst : acknowledgeTerminalFailedEvent d e with
    | error exc =>
      rw [hfirst] at hok
      cases hok
    | ok d₁ =>
      rw [hfirst] at hok
      have hstep : ∀ e', e' ∈ d₁.detectCandidates r time ↔ e' ∈ d.detectCandidates r time ∧ e' ≠ e := fun e' =>
        mem_candidates_of_settles (settles_acknowledgeTerminalFailed hfirst) (h e List.mem_cons_self)
      have hrest : ∀ x ∈ events, x ∈ d₁.detectCandidates r time := fun x hx =>
        (hstep x).mpr ⟨h x (List.mem_cons_of_mem e hx), fun heq => hnew (heq ▸ hx)⟩
      rw [ih hnodup hrest hok, hstep, List.mem_cons, not_or, and_assoc]

end Lists

section LiveUpdates

variable {b : MarketEventBridge} {e : MarketEvent} {o : EventProcessOutcome} {s s' : Session Db}

/-- The run of the event failed for its configuration, and no attempt at repeating it is under way. -/
def failedForGood (b : MarketEventBridge) (e : MarketEvent) (db : Db) : Bool :=
  (db.schedulerRuns.find? (isRun (b.jobName e) e.scheduledFor)).any fun run =>
    isPermanentFailure run && b.recoveryPending.isNone &&
      !db.schedulerRuns.any fun a => a.recoveryOfRunId = some run.runId && isActiveRecovery a

def runCompleted (b : MarketEventBridge) (e : MarketEvent) (db : Db) : Bool :=
  (db.schedulerRuns.find? (isRun (b.jobName e) e.scheduledFor)).any (·.status = .completed)

def constraintsValid (b : MarketEventBridge) (symbol : Symbol) : Bool :=
  (requireValidProductionConstraints symbol (b.builder.constraints symbol)).isOk

/-- The turn of a live update for which the configuration is at fault, now or at an earlier attempt. -/
def LiveFails (b : MarketEventBridge) (e : MarketEvent) (db : Db) : Prop :=
  e.eventType = .dailyLiveUpdate ∧
    (failedForGood b e db = true ∨ runCompleted b e db = false ∧ constraintsValid b e.symbol = false)

instance (b : MarketEventBridge) (e : MarketEvent) (db : Db) : Decidable (LiveFails b e db) := by
  unfold LiveFails
  infer_instance

theorem activeRecoveryContext_isNone {run : SchedulerRun}
    (hrun : s.db.schedulerRuns.find? (isRun (b.jobName e) e.scheduledFor) = some run) :
    ∃ c, b.activeRecoveryContext (b.jobName e) e.scheduledFor s = (.ok c, s) ∧
      c.isNone = (b.recoveryPending.isNone &&
        !s.db.schedulerRuns.any fun a => a.recoveryOfRunId = some run.runId && isActiveRecovery a) := by
  unfold activeRecoveryContext getSchedulerRun getActiveRecoveryAttempt
  cases hpending : b.recoveryPending with
  | some pending => exact ⟨some pending.1, rfl, rfl⟩
  | none =>
    simp only
    rw [read_bind]
    simp only [hrun]
    rw [read_bind]
    refine ⟨_, rfl, ?_⟩
    rw [Option.isNone_map, Option.isNone_none, Bool.true_and, Bool.eq_iff_iff]
    simp [List.mem_insertionSort]

theorem maybeShortCircuit_run (b : MarketEventBridge) (e : MarketEvent) (s : Session Db) :
    ∃ outcome, b.maybeShortCircuitPermanentFailure e (b.jobName e) e.scheduledFor s = (.ok outcome, s) ∧
      outcome.isSome = failedForGood b e s.db ∧ ∀ o ∈ outcome, o.terminalFailed = true := by
  unfold maybeShortCircuitPermanentFailure failedForGood getSchedulerRun
  rw [read_bind]
  cases hrun : s.db.schedulerRuns.find? (isRun (b.jobName e) e.scheduledFor) with
  | none => exact ⟨none, rfl, rfl, by simp⟩
  | some run =>
    simp only [Option.any_some]
    by_cases hpermanent : isPermanentFailure run = true
    · have hfailed : ¬ (run.status ≠ .failed ∨ !isPermanentConfigurationError run.error ∨
          run.resolvedByRunId.isSome) := by
        unfold isPermanentFailure at hpermanent
        simp_all
      obtain ⟨c, hcontext, hnone⟩ := activeRecoveryContext_isNone hrun
      rw [if_neg hfailed, bind_of_ok hcontext, hpermanent, Bool.true_and, ← hnone]
      cases c with
      | none => exact ⟨_, rfl, rfl, by simp⟩
      | some c => exact ⟨none, rfl, rfl, by simp⟩
    · have hother : run.status ≠ .failed ∨ !isPermanentConfigurationError run.error ∨
          run.resolvedByRunId.isSome := by
        unfold isPermanentFailure at hpermanent
        by_contra hno
        simp_all
      rw [if_pos hother, Bool.eq_false_iff.mpr hpermanent]
      exact ⟨none, rfl, rfl, by simp⟩

def IsPermanent (exc : Exc) : Prop := ∃ code message, exc = .permanentConfigurationFailure code message

theorem storage_not_permanent {exc : Exc} (h : StorageFailure exc) : ¬ IsPermanent exc := by
  rintro ⟨code, message, rfl⟩
  rcases h with h | h <;> cases h

theorem requireSuccessfulJobs_fails (outcomes : List JobRunOutcome) :
    Fails (fun exc => ¬ IsPermanent exc) (requireSuccessfulJobs outcomes) := by
  induction outcomes with
  | nil => exact fails_ok _
  | cons o rest ih =>
    unfold requireSuccessfulJobs
    split_ifs
    · refine fails_error.mpr ?_
      rintro ⟨_, _, h⟩
      cases h
    · refine fails_error.mpr ?_
      rintro ⟨_, _, h⟩
      cases h
    · exact ih

theorem handleDailyLive_raises (hvalid : constraintsValid b e.symbol = true) :
    Raises (fun exc => ¬ IsPermanent exc) (b.handleDailyLive e) := by
  have hcandle : Raises (fun exc => ¬ IsPermanent exc)
      (b.candleFor e "daily live candle missing at processing time") := by
    unfold candleFor
    split
    · exact raises_raise fun ⟨_, _, h⟩ => by cases h
    · split_ifs
      · exact raises_raise fun ⟨_, _, h⟩ => by cases h
      · exact raises_pure _
  have hstop : ∀ candle, Raises (fun exc => ¬ IsPermanent exc)
      (b.builder.buildIntradayStopContext e.symbol candle) := by
    intro candle
    unfold ContextBuilder.buildIntradayStopContext ContextBuilder.requireValidConstraints
    unfold constraintsValid at hvalid
    refine raises_bind ?_ fun constraints => ?_
    · cases hconstraints : requireValidProductionConstraints e.symbol (b.builder.constraints e.symbol) with
      | ok c => exact raises_pure _
      | error exc =>
        rw [hconstraints] at hvalid
        cases hvalid
    · split_ifs
      · exact raises_raise fun ⟨_, _, h⟩ => by cases h
      · exact raises_pure _
  refine raises_bind hcandle fun candle => raises_bind (hstop _) fun stop => ?_
  refine raises_bind ((runJob_raises _ _ _ _).mono fun _ => storage_not_permanent) fun outcome => ?_
  split_ifs
  · exact raises_raise fun ⟨_, _, h⟩ => by cases h
  · exact raises_ofExcept (requireSuccessfulJobs_fails _)

theorem requireValid_error (hinvalid : constraintsValid b e.symbol = false) : ∃ code message,
    requireValidProductionConstraints e.symbol (b.builder.constraints e.symbol) =
      .error (.permanentConfigurationFailure code message) := by
  unfold constraintsValid at hinvalid
  cases hconstraints : b.builder.constraints e.symbol with
  | none => exact ⟨_, _, rfl⟩
  | some c =>
    rw [hconstraints] at hinvalid
    unfold requireValidProductionConstraints at hinvalid ⊢
    cases hcore : validateSymbolConstraintsCore c with
    | some violation =>
      simp only [hcore]
      exact ⟨_, _, rfl⟩
    | none =>
      simp only [hcore] at hinvalid
      cases hinvalid

theorem handleDailyLive_fails {c : Candle} (hinvalid : constraintsValid b e.symbol = false)
    (hlatest : b.builder.candles.getLatest e.symbol .daily = some c) (htime : c.openTime = e.candleOpenTime)
    (s : Session Db) : ∃ code message,
      b.handleDailyLive e s = (.error (.permanentConfigurationFailure code message), s) := by
  obtain ⟨code, message, herror⟩ := requireValid_error hinvalid
  refine ⟨code, message, ?_⟩
  have hcandle : b.candleFor e "daily live candle missing at processing time" s = (.ok c, s) := by
    unfold candleFor latestDaily
    rw [hlatest]
    simp only
    rw [if_neg (not_not.mpr htime)]
    rfl
  unfold handleDailyLive
  rw [bind_of_ok hcandle]
  refine bind_of_error (bind_of_error ?_)
  unfold ContextBuilder.requireValidConstraints
  rw [herror]
  rfl

theorem persistedOutcome_yields (name : JobName) (t : Time) (skipped : Bool) :
    Yields (·.terminalFailed = false) (persistedOutcome name t e skipped) := by
  refine yields_bind fun run => ?_
  cases run with
  | none => exact yields_raise _
  | some run => exact yields_pure rfl

theorem deferredOutcome_yields (exc : Exc) (name : JobName) :
    Yields (·.terminalFailed = false) (b.deferredOutcome e exc name) :=
  yields_bind fun _ => yields_pure rfl

theorem runEvent_terminal {handle : Query Unit} (h : b.runEvent e handle s = (.ok o, s')) :
    o.terminalFailed = true ↔ ∃ exc u, IsPermanent exc ∧ handle s = (.error exc, u) := by
  obtain ⟨r, u, hattempt, h⟩ := bind_eq_ok.mp h
  have hbody := attempt_eq_ok.mp hattempt
  have hafter : Raises (fun exc => ¬ IsPermanent exc) (do
      b.completeMarketEvent (b.jobName e) e.scheduledFor .completed none
      persistedOutcome (b.jobName e) e.scheduledFor e false) := by
    refine raises_bind ((completeMarketEvent_raises b _ _ _ _).mono fun _ => storage_not_permanent) fun _ => ?_
    refine raises_bind (raises_read _) fun run => ?_
    cases run with
    | none => exact raises_raise fun ⟨_, _, h⟩ => by cases h
    | some run => exact raises_pure _
  have hhandle : ∀ {exc}, r = .error exc → IsPermanent exc → handle s = (.error exc, u) := by
    rintro exc rfl hpermanent
    rcases bind_eq_error.mp hbody with herror | ⟨_, v, _, herror⟩
    · exact herror
    · exact absurd hpermanent (hafter v exc u herror)
  have hnone : ∀ {exc v}, handle s = (.error exc, v) → r = .error exc := by
    intro exc v hexc
    rw [bind_of_error hexc] at hbody
    exact (Prod.mk.inj hbody).1.symm
  have hother : o.terminalFailed = false → (∀ exc, r = .error exc → ¬ IsPermanent exc) →
      (o.terminalFailed = true ↔ ∃ exc u, IsPermanent exc ∧ handle s = (.error exc, u)) := by
    intro hfalse hexc
    rw [hfalse]
    refine ⟨fun hfalse => (by cases hfalse), ?_⟩
    rintro ⟨exc, v, hpermanent, hfails⟩
    exact absurd hpermanent (hexc exc (hnone hfails))
  split at h
  · cases h
    rename_i outcome
    obtain ⟨_, v, _, hrest⟩ := bind_eq_ok.mp hbody
    obtain ⟨_, w, _, hpersisted⟩ := bind_eq_ok.mp hrest
    exact hother (persistedOutcome_yields _ _ _ _ _ _ hpersisted) (fun exc hr => by cases hr)
  · exact hother (deferredOutcome_yields _ _ _ _ _ h) (fun exc hr ⟨_, _, hp⟩ => by cases hr; cases hp)
  · exact hother (deferredOutcome_yields _ _ _ _ _ h) (fun exc hr ⟨_, _, hp⟩ => by cases hr; cases hp)
  · exact hother (deferredOutcome_yields _ _ _ _ _ h) (fun exc hr ⟨_, _, hp⟩ => by cases hr; cases hp)
  · rename_i code message
    obtain ⟨_, v, _, hmark⟩ := bind_eq_ok.mp h
    cases hmark
    exact ⟨fun _ => ⟨_, u, ⟨code, message, rfl⟩, hhandle rfl ⟨code, message, rfl⟩⟩, fun _ => rfl⟩
  · rename_i exc _ _ _ hno
    obtain ⟨_, v, _, hpersisted⟩ := bind_eq_ok.mp h
    refine hother (persistedOutcome_yields _ _ _ _ _ _ hpersisted) (fun exc' hr => ?_)
    cases hr
    rintro ⟨code, message, rfl⟩
    exact hno code message rfl

theorem ensureSchedulerRun_ok {run : SchedulerRun × Bool} {name : JobName} {t : Time}
    (h : b.ensureSchedulerRun name t s = (.ok run, s')) :
    run.2 = true ∨ s.db.schedulerRuns.find? (isRun name t) = some run.1 := by
  obtain ⟨runId, u, hid, h⟩ := bind_eq_ok.mp h
  cases hid
  rcases EventRules.insertOrGetSchedulerRun_ok (scope_eq_ok.mp h) with ⟨_, _, hfind⟩ | ⟨_, rfl, _⟩
  · exact .inr hfind
  · exact .inl rfl

theorem live_terminal_iff {c : Candle} (hlive : e.eventType = .dailyLiveUpdate) (hlow : e.observedLow ≠ none)
    (hlatest : b.builder.candles.getLatest e.symbol .daily = some c) (htime : c.openTime = e.candleOpenTime)
    (h : b.processEvent e s = (.ok o, s')) : o.terminalFailed = true ↔ LiveFails b e s.db := by
  obtain ⟨outcome, hshort, hgood, hterminal⟩ := maybeShortCircuit_run b e s
  have hcompleted : isCompleted (b.jobName e) e.scheduledFor s = (.ok (runCompleted b e s.db), s) := rfl
  unfold processEvent at h
  rw [if_neg (by simp [hlow]), if_neg (by simp [hlive]), bind_of_ok hshort] at h
  unfold LiveFails
  rw [← hgood]
  cases outcome with
  | some earlier =>
    cases h
    exact ⟨fun _ => ⟨hlive, .inl rfl⟩, fun _ => hterminal _ rfl⟩
  | none =>
    simp only [hlive, Option.isSome_none, Bool.false_eq_true, false_or, true_and] at h ⊢
    rw [bind_of_ok hcompleted] at h
    cases hdone : runCompleted b e s.db with
    | true =>
      rw [hdone] at h
      cases h
      simp [completedSkipped]
    | false =>
      rw [hdone] at h
      simp only [Bool.false_eq_true, if_false, true_and] at h ⊢
      obtain ⟨⟨run, created⟩, u, hensure, h⟩ := bind_eq_ok.mp h
      have hnew : ¬ ((!created && decide (run.status = .completed)) = true) := by
        intro hseen
        rw [Bool.and_eq_true, Bool.not_eq_true', decide_eq_true_eq] at hseen
        rcases ensureSchedulerRun_ok hensure with hcreated | hfind
        · rw [hseen.1] at hcreated
          cases hcreated
        · unfold runCompleted at hdone
          rw [hfind] at hdone
          simp [hseen.2] at hdone
      simp only [if_neg hnew] at h
      rw [runEvent_terminal h]
      constructor
      · rintro ⟨exc, v, hpermanent, hfails⟩
        by_contra hvalid
        exact handleDailyLive_raises (by simpa using hvalid) u exc v hfails hpermanent
      · intro hinvalid
        obtain ⟨code, message, hfails⟩ := handleDailyLive_fails hinvalid hlatest htime u
        exact ⟨_, u, ⟨code, message, rfl⟩, hfails⟩

end LiveUpdates

section Outcomes

variable {b : MarketEventBridge} {e : MarketEvent}

def Consistent (o : EventProcessOutcome) : Prop := o.terminalFailed = true → o.status = .failed

theorem Yields.consistent {m : Query EventProcessOutcome} (h : Yields (·.terminalFailed = false) m) :
    Yields Consistent m := by
  intro s o t ho hterminal
  rw [h s o t ho] at hterminal
  cases hterminal

theorem persisted_consistent (name : JobName) (t : Time) (skipped : Bool) :
    Yields Consistent (persistedOutcome name t e skipped) :=
  Yields.consistent (persistedOutcome_yields _ _ _)

theorem deferred_consistent (exc : Exc) (name : JobName) : Yields Consistent (b.deferredOutcome e exc name) :=
  Yields.consistent (deferredOutcome_yields _ _)

theorem runDailyOpen_consistent : Yields Consistent (b.runDailyOpen e) := by
  refine yields_bind fun _ => ?_
  intro s o t h
  obtain ⟨r, u, hattempt, h⟩ := bind_eq_ok.mp h
  have hbody := attempt_eq_ok.mp hattempt
  split at h
  · cases h
    obtain ⟨_, v, _, hrest⟩ := bind_eq_ok.mp hbody
    obtain ⟨_, w, _, houtcome⟩ := bind_eq_ok.mp hrest
    exact persisted_consistent _ _ _ _ _ _ houtcome
  · exact deferred_consistent _ _ _ _ _ h
  · exact deferred_consistent _ _ _ _ _ h
  · exact deferred_consistent _ _ _ _ _ h
  · exact yields_bind (fun _ => yields_pure fun _ => rfl) _ _ _ h
  · exact yields_bind (fun _ => persisted_consistent _ _ _) _ _ _ h
  · exact yields_bind (fun _ => persisted_consistent _ _ _) _ _ _ h

theorem processDailyOpenRecovery_consistent (c : RecoveryContext) :
    Yields Consistent (b.processDailyOpenRecovery e c) := by
  have hfailed : ∀ error terminal, Yields Consistent (b.recoveryFailed e c error terminal) := fun _ _ =>
    yields_bind fun _ => yields_pure fun _ => rfl
  refine yields_bind fun _ => yields_bind fun r => ?_
  split
  · exact yields_pure fun hterminal => by cases hterminal
  · exact deferred_consistent _ _
  · exact deferred_consistent _ _
  · exact deferred_consistent _ _
  · exact hfailed _ _
  · exact hfailed _ _
  · exact hfailed _ _

theorem runEvent_consistent (handle : Query Unit) : Yields Consistent (b.runEvent e handle) := by
  intro s o t h
  obtain ⟨r, u, hattempt, h⟩ := bind_eq_ok.mp h
  have hbody := attempt_eq_ok.mp hattempt
  split at h
  · cases h
    obtain ⟨_, v, _, hrest⟩ := bind_eq_ok.mp hbody
    obtain ⟨_, w, _, houtcome⟩ := bind_eq_ok.mp hrest
    exact persisted_consistent _ _ _ _ _ _ houtcome
  · exact deferred_consistent _ _ _ _ _ h
  · exact deferred_consistent _ _ _ _ _ h
  · exact deferred_consistent _ _ _ _ _ h
  · exact yields_bind (fun _ => yields_pure fun _ => rfl) _ _ _ h
  · exact yields_bind (fun _ => persisted_consistent _ _ _) _ _ _ h

theorem shortCircuit_consistent {outcome : Option EventProcessOutcome} {name : JobName} {t : Time}
    {s s' : Session Db} (h : b.maybeShortCircuitPermanentFailure e name t s = (.ok outcome, s')) :
    ∀ o ∈ outcome, Consistent o := by
  have hyields : Yields (fun outcome : Option EventProcessOutcome => ∀ o ∈ outcome, Consistent o)
      (b.maybeShortCircuitPermanentFailure e name t) := by
    refine yields_bind fun existing => ?_
    cases existing with
    | none => exact yields_pure (by simp)
    | some existing =>
      simp only
      split_ifs
      · exact yields_pure (by simp)
      · refine yields_bind fun recovery => ?_
        split_ifs
        · exact yields_pure (by simp)
        · refine yields_pure fun o ho => ?_
          cases ho
          exact fun _ => rfl
  exact hyields s outcome s' h

theorem processEvent_consistent : Yields Consistent (b.processEvent e) := by
  have hskipped : Yields Consistent (pure (completedSkipped (b.jobName e) e) : Query EventProcessOutcome) :=
    yields_pure fun hterminal => by cases hterminal
  have hopen : Yields Consistent (b.processDailyOpen e) := by
    intro s o t h
    obtain ⟨outcome, u, hshort, h⟩ := bind_eq_ok.mp h
    cases outcome with
    | some earlier =>
      cases h
      exact shortCircuit_consistent hshort _ rfl
    | none =>
      refine yields_bind (fun recovery => ?_) u o t h
      cases recovery with
      | some c => exact processDailyOpenRecovery_consistent c
      | none =>
        refine yields_bind fun complete => ?_
        cases complete with
        | true => exact yields_bind fun _ => persisted_consistent _ _ _
        | false => exact runDailyOpen_consistent
  have hhandled : ∀ handle, Yields Consistent (b.processLiveOrClosed e handle) := by
    refine fun handle => yields_bind fun run => ?_
    simp only
    split_ifs
    · exact hskipped
    · exact runEvent_consistent handle
  have hmarker : Yields Consistent (b.completeMarkerEvent e) := by
    refine yields_bind fun run => ?_
    simp only
    split_ifs
    · exact hskipped
    · exact yields_bind fun _ => persisted_consistent _ _ _
  unfold processEvent
  split_ifs with hlow htype
  · exact yields_raise _
  · exact hopen
  · intro s o t h
    obtain ⟨outcome, u, hshort, h⟩ := bind_eq_ok.mp h
    cases outcome with
    | some earlier =>
      cases h
      exact shortCircuit_consistent hshort _ rfl
    | none =>
      refine yields_bind (fun completed => ?_) u o t h
      cases completed with
      | true => exact hskipped
      | false =>
        simp only [Bool.false_eq_true, if_false]
        split
        · exact hmarker
        · exact hmarker
        · exact hhandled _
        · exact hhandled _
        · exact yields_raise _

end Outcomes

section Polls

variable {p : MarketEventPoll} {tables tables' : FairnessTables} {result : BridgePollResult} {s s' : Session Db}

theorem nodup_candidates (p : MarketEventPoll) : p.candidates.Nodup := by
  unfold MarketEventPoll.candidates detectCandidates
  refine List.nodup_flatMap.mpr ⟨fun symbol _ => nodup_detectSymbol _ _ _ symbol, ?_⟩
  refine p.symbols_nodup.imp fun {a b} hne e ha hb => hne ?_
  exact (symbol_of_detected ha).symm.trans (symbol_of_detected hb)

theorem turns_of_poll (h : p.processAfterPoll tables s = (.ok (result, tables'), s')) :
    (result.turns.map (·.event)).Nodup ∧ ∀ t ∈ result.turns, t.event ∈ p.candidates ∧ Taken p t := by
  unfold MarketEventPoll.processAfterPoll at h
  split_ifs at h
  · cases h
    exact ⟨List.nodup_nil, by simp⟩
  · obtain ⟨g, u, hgroups, h⟩ := bind_eq_ok.mp h
    obtain ⟨_, v, _, h⟩ := bind_eq_ok.mp h
    cases h
    obtain ⟨turns, hturns, hsub, htaken⟩ := (takesSome_processGroups hgroups).added
    obtain ⟨hnodup, hcandidates⟩ := schedule_candidates p tables (nodup_candidates p)
    have hall : g.turns = turns := by simpa using hturns
    simp only [hall]
    refine ⟨hnodup.sublist hsub, fun t ht => ⟨hcandidates _ (hsub.subset ?_), htaken t ht⟩⟩
    exact List.mem_map_of_mem ht

theorem live_candidate {e : MarketEvent} (he : e ∈ p.candidates) (hlive : e.eventType = .dailyLiveUpdate) :
    e.observedLow ≠ none ∧ ∃ c, p.candleRepository.getLatest e.symbol .daily = some c ∧
      c.openTime = e.candleOpenTime := by
  obtain ⟨symbol, _, hdetected⟩ := List.mem_flatMap.mp he
  have hsymbol := symbol_of_detected hdetected
  obtain ⟨type, c, hlatest, _, _, rfl⟩ := mem_detectSymbol.mp hdetected
  have htype : type = .dailyLiveUpdate := hlive
  subst htype
  refine ⟨by simp [eventOf], c, ?_, rfl⟩
  rw [hsymbol]
  exact hlatest

/-- The result of a poll can be acknowledged exactly when no live update that had its turn failed for the
configuration. -/
theorem poll_acknowledgeable_iff (h : p.processAfterPoll tables s = (.ok (result, tables'), s')) :
    Acknowledgeable p result ↔ ∀ t ∈ result.turns, ¬ LiveFails (p.bridge t.event) t.event t.before := by
  obtain ⟨hnodup, hturns⟩ := turns_of_poll h
  have hterminal : ∀ t ∈ result.turns, t.event.eventType = .dailyLiveUpdate →
      (t.outcome.terminalFailed = true ↔ LiveFails (p.bridge t.event) t.event t.before) := by
    intro t ht hlive
    obtain ⟨hcandidate, u, u', hbefore, hprocess⟩ := hturns t ht
    obtain ⟨hlow, c, hlatest, htime⟩ := live_candidate hcandidate hlive
    rw [← hbefore]
    refine live_terminal_iff hlive hlow ?_ htime hprocess
    rw [p.bridge_candles]
    exact hlatest
  have hsupported : (∀ e ∈ result.eventsTerminalFailed, e.eventType ≠ .dailyLiveUpdate) ↔
      ∀ t ∈ result.turns, ¬ LiveFails (p.bridge t.event) t.event t.before := by
    unfold BridgePollResult.eventsTerminalFailed
    rw [List.forall_mem_map]
    constructor
    · intro hall t ht hfails
      have hfailed := (hterminal t ht hfails.1).mpr hfails
      exact hall t (List.mem_filter.mpr ⟨ht, hfailed⟩) hfails.1
    · intro hall t ht hlive
      obtain ⟨ht, hfailed⟩ := List.mem_filter.mp ht
      exact hall t ht ((hterminal t ht hlive).mp hfailed)
  have hacked : result.eventsToAck.Nodup := hnodup.sublist (List.filter_sublist.map _)
  have hfailed : result.eventsTerminalFailed.Nodup := hnodup.sublist (List.filter_sublist.map _)
  have hackedCandidates : ∀ e ∈ result.eventsToAck, e ∈ p.candidates := by
    intro e he
    obtain ⟨t, ht, rfl⟩ := List.mem_map.mp he
    exact (hturns t (List.mem_filter.mp ht).1).1
  have hfailedCandidates : ∀ e ∈ result.eventsTerminalFailed, e ∈ p.candidates := by
    intro e he
    obtain ⟨t, ht, rfl⟩ := List.mem_map.mp he
    exact (hturns t (List.mem_filter.mp ht).1).1
  rw [← hsupported, ← acknowledgeTerminalFailedCommitted_ok_iff
    (d := acknowledgeCommitted p.detector result.eventsToAck)]
  constructor
  · rintro ⟨d, hok, _⟩
    exact ⟨d, hok⟩
  · rintro ⟨d, hok⟩
    have hdisjoint : ∀ e ∈ result.eventsTerminalFailed, e ∉ result.eventsToAck := by
      intro e hfails hacks
      obtain ⟨t, ht, rfl⟩ := List.mem_map.mp hfails
      obtain ⟨t', ht', hsame⟩ := List.mem_map.mp hacks
      obtain ⟨ht, hterm⟩ := List.mem_filter.mp ht
      obtain ⟨ht', hack⟩ := List.mem_filter.mp ht'
      obtain rfl : t' = t := List.inj_on_of_nodup_map hnodup ht' ht hsame
      obtain ⟨_, u, u', _, hprocess⟩ := hturns t' ht
      have hstatus : t'.outcome.status = .failed := processEvent_consistent _ _ _ hprocess hterm
      unfold shouldAck at hack
      simp [hstatus] at hack
    have hcommitted : ∀ e, e ∈ (acknowledgeCommitted p.detector result.eventsToAck).detectCandidates
        p.candleRepository p.evaluationTime ↔ e ∈ p.candidates ∧ e ∉ result.eventsToAck := fun e =>
      mem_candidates_acknowledged hacked hackedCandidates
    refine ⟨d, hok, fun e => ?_⟩
    rw [mem_candidates_terminalFailed hfailed (fun e he => (hcommitted e).mpr
      ⟨hfailedCandidates e he, hdisjoint e he⟩) hok, hcommitted, and_assoc]

end Polls

section Samples

def livePoll (b : MarketEventBridge) (hcandles : b.builder.candles = morning) : MarketEventPoll :=
  { detector := { symbols := [.BTC], trackers := fun _ => { dailyOpenAckTime := some (19744 * day) } }
    candleRepository := morning
    bridge := fun _ => b
    evaluationTime := 19744 * day + 5 * second
    symbols_nodup := by decide
    bridge_candles := fun _ => hcandles }

theorem poll_result {p : MarketEventPoll} {tables : FairnessTables} {s : Session Db} {q : BridgePollResult → Bool}
    (h : (p.processAfterPoll tables s).1.toOption.any (q ·.1) = true) :
    ∃ result tables' s', p.processAfterPoll tables s = (.ok (result, tables'), s') ∧ q result = true := by
  rcases hrun : p.processAfterPoll tables s with ⟨exc | ⟨result, tables'⟩, s'⟩
  · rw [hrun] at h
    cases h
  · rw [hrun] at h
    exact ⟨result, tables', s', rfl, h⟩

theorem live_poll_acknowledgeable : ∃ result tables' s',
    (livePoll morningBridge rfl).processAfterPoll {} ⟨startingDb, []⟩ = (.ok (result, tables'), s') ∧
      (∃ t ∈ result.turns, t.event.eventType = .dailyLiveUpdate) ∧
        Acknowledgeable (livePoll morningBridge rfl) result := by
  have hpoll := @poll_result (livePoll morningBridge rfl) {} ⟨startingDb, []⟩ fun result =>
    decide (∃ t ∈ result.turns, t.event.eventType = .dailyLiveUpdate) &&
      decide (∀ t ∈ result.turns, ¬ LiveFails morningBridge t.event t.before)
  obtain ⟨result, tables', s', hrun, hresult⟩ := hpoll (by decide +kernel)
  rw [Bool.and_eq_true, decide_eq_true_eq, decide_eq_true_eq] at hresult
  exact ⟨result, tables', s', hrun, hresult.1, (poll_acknowledgeable_iff hrun).mpr hresult.2⟩

/-- Without constraints the live update fails for good, and its failure cannot be acknowledged. -/
theorem failed_live_update_unacknowledgeable : ¬ ∀ (p : MarketEventPoll) (tables tables' : FairnessTables)
    (s s' : Session Db) (result : BridgePollResult),
    p.processAfterPoll tables s = (.ok (result, tables'), s') → Acknowledgeable p result := by
  intro h
  have hpoll := @poll_result (livePoll (misconfigured morningBridge) rfl) {} ⟨startingDb, []⟩ fun result =>
    !(acknowledgeTerminalFailedCommitted (acknowledgeCommitted
      (livePoll (misconfigured morningBridge) rfl).detector result.eventsToAck) result.eventsTerminalFailed).isOk
  obtain ⟨result, tables', s', hrun, hresult⟩ := hpoll (by decide +kernel)
  obtain ⟨d, hok, _⟩ := h _ _ _ _ _ _ hrun
  rw [hok] at hresult
  cases hresult

end Samples

end TradingBot.Paper.PollAcknowledgement
