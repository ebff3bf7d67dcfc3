import TradingBot.Paper.OwnWork
import TradingBot.Paper.SignalParity

namespace TradingBot.Paper.EventEffects

open Market.Models Market.Timeframes Market.Repository Exceptions Library.Transaction Paper.Models Paper.Repository
open Paper.MarketEvents Paper.Bridge Paper.WorkJournal Paper.OwnWork Paper.Polls

variable {openTime : Time} {kept : List WorkEntry} {s : Session Db} {db : Db} {kind : MarketEventType}

/-- Between the events of a candle, the completed runs of the bridge have their work in the journal. -/
structure Settled (openTime : Time) (kept : List WorkEntry) (db : Db) : Prop where
  runs : ∀ r ∈ db.schedulerRuns, r.status = .completed → Concerns openTime r.scheduledFor →
    eventWork r.jobName r.scheduledFor ⊆ db.work
  kept : kept ⊆ db.work

def OwnJobs (symbol : Symbol) (openTime : Time) (db : Db) : Prop :=
  ∀ r ∈ db.schedulerRuns, r.status = .completed → Concerns openTime r.scheduledFor →
    ∀ job ∈ symbolJobs, r.jobName = .scheduler job → ⟨job, r.scheduledFor, symbol⟩ ∈ db.work

/-- No run is scheduled for the open or the close of the candle. -/
def FreshFor (openTime : Time) (db : Db) : Prop :=
  ∀ r ∈ db.schedulerRuns, ¬ Concerns openTime r.scheduledFor

theorem FreshFor.settled (h : FreshFor openTime db) : Settled openTime [] db :=
  ⟨fun r hr _ ht => absurd ht (h r hr), List.nil_subset _⟩

theorem Settled.evidenced {symbol : Symbol} (h : Settled openTime kept db)
    (hown : OwnJobs symbol openTime db) : Evidenced symbol openTime kept db := by
  refine ⟨fun r hr hc ht => ?_, h.kept⟩
  have hevent := h.runs r hr hc ht
  rcases hname : r.jobName with job | _ | _ | _ | _ | _ | _ <;> rw [hname] at hevent
  · dsimp only [requiredWork]
    split_ifs with hjob
    · exact List.cons_subset.mpr ⟨hown r hr hc ht job hjob hname, List.nil_subset _⟩
    · exact List.nil_subset _
  all_goals exact hevent

theorem settled_of_evidenced {symbol : Symbol} (h : Evidenced symbol openTime kept db) :
    Settled openTime kept db := by
  refine ⟨fun r hr hc ht => ?_, h.kept⟩
  have hrequired := h.runs r hr hc ht
  rcases hname : r.jobName with _ | _ | _ | _ | _ | _ | _ <;> rw [hname] at hrequired
  · exact List.nil_subset _
  all_goals exact hrequired

def OfKind (kind : MarketEventType) (openTime : Time) (turn : Turn) : Prop :=
  turn.2.eventType = kind ∧ turn.2.candleOpenTime = openTime

theorem takeTurn_leaves {turn : Turn} (hkind : kind = .dailyOpenAvailable ∨ kind = .dailyClosed)
    (hturn : OfKind kind openTime turn) (hown : OwnJobs turn.2.symbol openTime s.db)
    (hs : Settled openTime kept s.db) :
    Leaves (Settled openTime kept)
      (fun o db => o.1 = turn.2 ∧ (shouldAck o.2 → ownWork turn.2 ⊆ db.work)) (takeTurn turn) s := by
  obtain ⟨b, e⟩ := turn
  obtain ⟨rfl, rfl⟩ := hturn
  have hprocess := (processEvent_leaves b e hkind (hs.evidenced hown)).mono
    (fun _ h => settled_of_evidenced h) fun _ _ _ h => h
  refine hprocess.bind fun o u hu hdone => leaves_pure hu ⟨rfl, fun hack => hdone ?_⟩
  simp only [shouldAck, decide_eq_true_eq] at hack
  exact hack.1

theorem takeTurns_leaves {turns : List Turn} (hkind : kind = .dailyOpenAvailable ∨ kind = .dailyClosed)
    (hturns : ∀ turn ∈ turns, OfKind kind openTime turn)
    (hown : AtTurns (fun turn db => OwnJobs turn.2.symbol openTime db) turns s)
    (hs : Settled openTime kept s.db) :
    Leaves (Settled openTime kept) (fun outcomes db => ∀ e ∈ eventsToAck outcomes, ownWork e ⊆ db.work)
      (forEach turns takeTurn) s := by
  induction turns generalizing kept s with
  | nil => exact leaves_pure hs fun _ h => by cases h
  | cons turn turns ih =>
    obtain ⟨hfirst, hnext⟩ := hown
    have hrest := fun turn' h => hturns turn' (List.mem_cons_of_mem _ h)
    refine (takeTurn_leaves hkind (hturns turn List.mem_cons_self) hfirst hs).bind_run
      fun o s₁ hrun hs₁ ho => ?_
    obtain ⟨hevent, hdone⟩ := ho
    by_cases hack : shouldAck o.2 = true
    · -- the work of this event is kept while the others are processed
      have hadded : Settled openTime (ownWork turn.2 ++ kept) s₁.db :=
        ⟨hs₁.runs, List.append_subset.mpr ⟨hdone hack, hs₁.kept⟩⟩
      have hothers := ih hrest (hnext o s₁ hrun) hadded
      refine Leaves.mono (hothers.bind fun outcomes s₂ hs₂ hacked => leaves_pure
        (p := fun outcomes db => ∀ e ∈ eventsToAck outcomes, ownWork e ⊆ db.work) hs₂ ?_)
        (fun _ h => ⟨h.runs, (List.append_subset.mp h.kept).2⟩) fun _ _ _ h => h
      simp only [eventsToAck, List.filter_cons, hack, if_true, List.map_cons, List.forall_mem_cons, hevent]
      exact ⟨(List.append_subset.mp hs₂.kept).1, hacked⟩
    · refine (ih hrest (hnext o s₁ hrun) hs₁).bind fun outcomes s₂ hs₂ hacked => leaves_pure hs₂ ?_
      simpa only [eventsToAck, List.filter_cons, hack, Bool.false_eq_true, if_false] using hacked

theorem poll_leaves {p : Poll} (hkind : kind = .dailyOpenAvailable ∨ kind = .dailyClosed)
    (hturns : ∀ turn ∈ p.turns, OfKind kind openTime turn)
    (hown : AtTurns (fun turn db => OwnJobs turn.2.symbol openTime db) p.turns ⟨db, p.faults⟩)
    (hdb : Settled openTime kept db) :
    Settled openTime kept (p.run db).2 ∧ ∀ e ∈ (p.run db).1, ownWork e ⊆ (p.run db).2.work := by
  have hprocess : Leaves (Settled openTime kept) (fun acked db => ∀ e ∈ acked, ownWork e ⊆ db.work)
      p.process ⟨db, p.faults⟩ := by
    refine Leaves.scope hdb ((takeTurns_leaves hkind hturns hown hdb).bind fun outcomes s₁ hs₁ hacked => ?_)
    split_ifs
    · exact leaves_pure hs₁ hacked
    · exact leaves_raise hs₁
  unfold Poll.run
  rcases hrun : p.process ⟨db, p.faults⟩ with ⟨exc | acked, s'⟩
  · have hinv := hprocess.1
    rw [hrun] at hinv
    exact ⟨hinv, fun _ h => by cases h⟩
  · exact hprocess.of_ok hrun

theorem runPolls_leaves {polls : List Poll} (hkind : kind = .dailyOpenAvailable ∨ kind = .dailyClosed)
    (hturns : ∀ p ∈ polls, ∀ turn ∈ p.turns, OfKind kind openTime turn)
    (hown : AtPolls (fun turn db => OwnJobs turn.2.symbol openTime db) db polls)
    (hdb : Settled openTime kept db) :
    kept ⊆ (runPolls db polls).2.work ∧
      ∀ e ∈ (runPolls db polls).1, ownWork e ⊆ (runPolls db polls).2.work := by
  induction polls generalizing kept db with
  | nil => exact ⟨hdb.kept, fun _ h => by cases h⟩
  | cons p ps ih =>
    obtain ⟨hfirst, hnext⟩ := hown
    obtain ⟨hsettled, hacked⟩ := poll_leaves hkind (hturns p List.mem_cons_self) hfirst hdb
    have hadded : Settled openTime ((p.run db).1.flatMap ownWork ++ kept) (p.run db).2 := by
      refine ⟨hsettled.runs, List.append_subset.mpr ⟨fun w hw => ?_, hsettled.kept⟩⟩
      obtain ⟨e, he, hw⟩ := List.mem_flatMap.mp hw
      exact hacked e he hw
    obtain ⟨hkept, hlater⟩ := ih (fun p' h => hturns p' (List.mem_cons_of_mem _ h)) hnext hadded
    refine ⟨fun w hw => hkept (List.mem_append_right _ hw), fun e he => ?_⟩
    rcases List.mem_append.mp he with he | he
    · exact fun w hw => hkept (List.mem_append_left _ (List.mem_flatMap.mpr ⟨e, he, hw⟩))
    · exact hlater e he

/-- From a state without runs for the candle, every acknowledged open or close has had its own work
done, as long as no job that the scheduler counts as done was done for other symbols only. -/
theorem acknowledged_events_have_effect {polls : List Poll}
    (hkind : kind = .dailyOpenAvailable ∨ kind = .dailyClosed) (hfresh : FreshFor openTime db)
    (hturns : ∀ p ∈ polls, ∀ turn ∈ p.turns, OfKind kind openTime turn)
    (hown : AtPolls (fun turn db => OwnJobs turn.2.symbol openTime db) db polls) :
    ∀ e ∈ (runPolls db polls).1, ownWork e ⊆ (runPolls db polls).2.work :=
  (runPolls_leaves hkind hturns hown hfresh.settled).2

section Samples

def morningCandles (symbol : Symbol) : List Candle :=
  { symbol, timeframe := .daily, openTime := 19744 * day, closeTime := dailyClose (19744 * day)
    openPrice := 100, high := 100, low := 100, close := 100, volume := 0, isClosed := false } ::
  (SignalParity.flatHistory (List.replicate 21 100)).map fun c => { c with symbol }

def morning : CandleRepository :=
  { store := morningCandles .BTC ++ morningCandles .ETH, keys := by decide +kernel }

def morningScheduler : Scheduler.PaperTradingScheduler :=
  { config := .defaults
    risk := fun _ => .error .assertionError
    now := fun _ => 19744 * day + 5 * second
    marketDataReady := fun _ => true }

def morningBuilder : SchedulerContext.ContextBuilder :=
  { config := .defaults
    candles := morning
    marketDataReady := true
    constraints := fun _ =>
      some { quantityStep := 1 / 1000, minimumQuantity := 1 / 1000, priceTickSize := 1 / 10 } }

def morningBridge : MarketEventBridge :=
  { scheduler := morningScheduler, builder := morningBuilder, lowDigest := fun _ => 0 }

def openEvent (symbol : Symbol) : MarketEvent :=
  { eventType := .dailyOpenAvailable, symbol, candleOpenTime := 19744 * day
    providerReceivedAt := 19744 * day + 5 * second }

def startingDb : Db :=
  { wallet := some { cash := 1000 }
    runtimeState := some { status := .ready, heartbeatAt := 19744 * day } }

theorem openEvent_ofKind (symbol : Symbol) :
    OfKind .dailyOpenAvailable (19744 * day) (morningBridge, openEvent symbol) := ⟨rfl, rfl⟩

theorem btc_open_has_effect :
    (runPolls startingDb [⟨[(morningBridge, openEvent .BTC)], [], true⟩]).1 = [openEvent .BTC] ∧
    ∀ e ∈ (runPolls startingDb [⟨[(morningBridge, openEvent .BTC)], [], true⟩]).1,
      ownWork e ⊆ (runPolls startingDb [⟨[(morningBridge, openEvent .BTC)], [], true⟩]).2.work := by
  have hfresh : FreshFor (19744 * day) startingDb := fun r hr => by cases hr
  refine ⟨by decide +kernel, acknowledged_events_have_effect (.inl rfl) hfresh ?_ ?_⟩
  · simp only [List.forall_mem_singleton]
    exact openEvent_ofKind .BTC
  · refine ⟨⟨?_, fun _ _ _ => trivial⟩, trivial⟩
    intro r hr
    cases hr

/-- BTC and ETH open at the same time: the second open is acknowledged without its work. -/
theorem second_open_without_effect : ¬ ∀ (kind : MarketEventType) (openTime : Time) (db : Db)
    (polls : List Poll), (kind = .dailyOpenAvailable ∨ kind = .dailyClosed) → FreshFor openTime db →
    (∀ p ∈ polls, ∀ turn ∈ p.turns, OfKind kind openTime turn) →
    ∀ e ∈ (runPolls db polls).1, ownWork e ⊆ (runPolls db polls).2.work := by
  intro h
  have hfresh : FreshFor (19744 * day) startingDb := fun r hr => by cases hr
  have hkinds : ∀ p ∈ [(⟨[(morningBridge, openEvent .BTC), (morningBridge, openEvent .ETH)], [], true⟩ : Poll)],
      ∀ turn ∈ p.turns, OfKind .dailyOpenAvailable (19744 * day) turn := by
    simp only [List.forall_mem_singleton, List.forall_mem_cons]
    exact ⟨openEvent_ofKind .BTC, openEvent_ofKind .ETH⟩
  have hrun : openEvent .ETH ∈ (runPolls startingDb
        [⟨[(morningBridge, openEvent .BTC), (morningBridge, openEvent .ETH)], [], true⟩]).1 ∧
      ¬ ownWork (openEvent .ETH) ⊆ (runPolls startingDb
        [⟨[(morningBridge, openEvent .BTC), (morningBridge, openEvent .ETH)], [], true⟩]).2.work := by
    decide +kernel
  exact hrun.2 (h _ _ startingDb _ (.inl rfl) hfresh hkinds (openEvent .ETH) hrun.1)

end Samples

end TradingBot.Paper.EventEffects
