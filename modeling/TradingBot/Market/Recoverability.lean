import TradingBot.Market.Reports

namespace TradingBot.Market.Recoverability

open Market.Models Market.Repository Market.Quality Market.Provider Market.Feed Market.Ingest
open Market.Runtime Market.RuntimeFacts Market.RuntimeRules Market.Reports MarketDataRuntime
open Exceptions Library.Outcome

section Feed

variable {f f' : WebSocketFeed}

/-- What reading messages does to the transport: acknowledgements are added only, and a connection that stays
up shows no new error. -/
structure Reads (f f' : WebSocketFeed) : Prop where
  config : f'.config = f.config
  acknowledged : f.subscriptionsAcknowledged ≤ f'.subscriptionsAcknowledged
  status : f'.status = f.status ∧ f'.backgroundError = f.backgroundError ∨ f'.status = .reconnecting

theorem Reads.refl (f : WebSocketFeed) : Reads f f := ⟨rfl, le_rfl, .inl ⟨rfl, rfl⟩⟩

theorem Reads.expected (h : Reads f f') : f'.subscriptionsExpected = f.subscriptionsExpected := by
  unfold WebSocketFeed.subscriptionsExpected WebSocketFeed.expectedSubs
  rw [h.config]

theorem handleItem_keeps {item : CandlePayload} {now : Time} (h : f.handleItem item now = .ok f') :
    f'.config = f.config ∧ f'.ackedSubs = f.ackedSubs ∧ f'.status = f.status ∧
      f'.backgroundError = f.backgroundError := by
  unfold WebSocketFeed.handleItem at h
  cases hparse : parseCandle item item.s.toUpper item.i now with
  | error exc =>
    simp only [hparse, bind, Except.bind] at h
    split_ifs at h
    cases h
    exact ⟨rfl, rfl, rfl, rfl⟩
  | ok raw =>
    simp only [hparse, bind, Except.bind] at h
    split_ifs at h
    · cases h
      exact ⟨rfl, rfl, rfl, rfl⟩
    · cases h
      exact ⟨rfl, rfl, rfl, rfl⟩
    · cases h
      exact ⟨rfl, rfl, rfl, rfl⟩

theorem handleCandle_keeps {now : Time} {items : List CandlePayload} :
    (f.handleCandle now items).1.config = f.config ∧ (f.handleCandle now items).1.ackedSubs = f.ackedSubs ∧
      (f.handleCandle now items).1.status = f.status ∧
      (f.handleCandle now items).1.backgroundError = f.backgroundError := by
  induction items generalizing f with
  | nil => exact ⟨rfl, rfl, rfl, rfl⟩
  | cons item items ih =>
    unfold WebSocketFeed.handleCandle
    cases hitem : f.handleItem item now with
    | error exc => exact ⟨rfl, rfl, rfl, rfl⟩
    | ok f' =>
      obtain ⟨hconfig, hacked, hstatus, herror⟩ := handleItem_keeps hitem
      obtain ⟨hconfig', hacked', hstatus', herror'⟩ := ih (f := f')
      exact ⟨hconfig'.trans hconfig, hacked'.trans hacked, hstatus'.trans hstatus, herror'.trans herror⟩

theorem reads_readOnce (f : WebSocketFeed) (m : Message) : Reads f (f.readOnce m).1 := by
  cases m with
  | candles items now =>
    obtain ⟨hconfig, hacked, hstatus, herror⟩ := @handleCandle_keeps f now items
    exact ⟨hconfig, (congrArg List.length hacked).ge, .inl ⟨hstatus, herror⟩⟩
  | subscriptionResponse coin interval =>
    unfold WebSocketFeed.readOnce WebSocketFeed.handleSubscriptionAck
    simp only
    split_ifs
    · refine ⟨rfl, ?_, .inl ⟨rfl, rfl⟩⟩
      unfold WebSocketFeed.subscriptionsAcknowledged
      rw [List.length_append]
      exact Nat.le_add_right _ _
    · exact Reads.refl f
  | other => exact Reads.refl f

theorem reads_readerLoop (f : WebSocketFeed) (m : Message) : Reads f (f.readerLoop m) := by
  have hread := reads_readOnce f m
  unfold WebSocketFeed.readerLoop
  split_ifs
  · exact Reads.refl f
  · rcases hresult : f.readOnce m with ⟨f', _ | exc⟩
    · rw [hresult] at hread
      exact hread
    · rw [hresult] at hread
      exact ⟨hread.config, hread.acknowledged, .inr rfl⟩

theorem reads_readerLost (f : WebSocketFeed) (error : String) : Reads f (f.readerLost error) := by
  unfold WebSocketFeed.readerLost
  split_ifs
  · exact ⟨rfl, le_rfl, .inr rfl⟩
  · exact Reads.refl f

theorem reads_heartbeatLost (f : WebSocketFeed) (error : String) : Reads f (f.heartbeatLost error) := by
  unfold WebSocketFeed.heartbeatLost
  split_ifs
  · exact ⟨rfl, le_rfl, .inr rfl⟩
  · exact Reads.refl f

end Feed

section Readiness

variable {rt : MarketDataRuntime} {t : Time}

/-- Every series is valid, without conflicts, and long enough for the strategy. -/
structure DataReady (rt : MarketDataRuntime) (t : Time) : Prop where
  conflicts : rt.repository.conflicts = []
  series : ∀ s ∈ rt.ws.config.allSubscriptions, ∃ report,
    seriesReport rt.repository t s.1 s.2 = .ok report ∧ report.status = .valid
  bundles : ∀ symbol ∈ rt.ws.config.symbols, marketDataReady rt.repository t symbol = .ok true

/-- What `start` and a completed backfill leave behind. -/
structure Complete (rt : MarketDataRuntime) : Prop where
  metaOk : rt.metaOk = true
  backfillOk : rt.backfillOk = true
  initialBackfillDone : rt.initialBackfillDone = true

theorem readiness_eq_true (hdata : DataReady rt t) (hcomplete : Complete rt)
    (hacked : rt.ws.subscriptionsExpected ≤ rt.ws.subscriptionsAcknowledged)
    (hbundles : rt.strategyBundlesReady = true) (hstatus : rt.ws.status = .connected)
    (hbackground : rt.ws.backgroundError = none) (herror : rt.lastError = none) :
    rt.readiness t = .ok true := by
  obtain ⟨reports, hreports, hvalid⟩ := mapM_all
    (f := fun s : Symbol × Timeframe => seriesReport rt.repository t s.1 s.2) hdata.series
  have hall : reports.all (·.status = .valid) = true := by
    rw [List.all_eq_true]
    exact fun report hreport => decide_eq_true (hvalid report hreport)
  have hcurrent : rt.currentError = none := by
    unfold currentError
    rw [herror, hbackground]
    rfl
  have hready : rt.readiness t = .ok (rt.metaOk && rt.backfillOk &&
      rt.ws.subscriptionsExpected ≤ rt.ws.subscriptionsAcknowledged && rt.initialBackfillDone &&
      rt.strategyBundlesReady && rt.repository.conflicts.isEmpty && reports.all (·.status = .valid) &&
      rt.ws.status = .connected && rt.currentError = none) := by
    unfold MarketDataRuntime.readiness
    exact except_bind_eq_ok.mpr ⟨reports, hreports, rfl⟩
  rw [hready, hcomplete.metaOk, hcomplete.backfillOk, hcomplete.initialBackfillDone, hbundles, hdata.conflicts,
    hall, hstatus, hcurrent]
  simp [hacked]

end Readiness

section Invariant

/-- What the phase says about the flags. Only a call of `start` runs before the runtime is started. -/
def Phased (rt : MarketDataRuntime) : Phase → Prop
  | .idle => True
  | .backingOff call _ => call ≠ .start ∧ rt.ws.status = .reconnecting
  | .connecting call _ | .handshaking call _ => call = .start → rt.started = false ∧ rt.metaOk = true
  | .backfilling call .. => (call = .start → rt.started = false ∧ rt.metaOk = true) ∧
      rt.ws.subscriptionsExpected ≤ rt.ws.subscriptionsAcknowledged

structure Flags (rt : MarketDataRuntime) : Prop where
  complete : rt.started = true → Complete rt
  quiet : rt.ws.status = .connected → rt.ws.backgroundError = none

def GoodAnswers (rt : MarketDataRuntime) (t : Time) (symbol : Symbol) (timeframe : Timeframe)
    (fetchedMeta : Except Exc Unit) : Except Exc (List CandlePayload) → Prop
  | .ok items => fetchedMeta.isOk ∧
      (fetchCandles symbol timeframe (rt.backfillStart symbol timeframe t) t t items).isOk
  | .error _ => False

def AnswersMeet (rt : MarketDataRuntime) (fetchedMeta : Except Exc Unit)
    (pages : Except Exc (List CandlePayload)) : Phase → Prop
  | .backfilling call t symbol timeframe _ =>
    call ≠ .start → GoodAnswers rt t symbol timeframe fetchedMeta pages
  | _ => True

def TimeoutMeets (rt : MarketDataRuntime) : Phase → Prop
  | .backfilling call .. => call ≠ .start → rt.ws.status = .reconnecting
  | _ => True

/-- In a reconnect no fetch fails, and its time is up only if the connection has been lost again. -/
def Meets (rt : MarketDataRuntime) : Action → Prop
  | .fetched fetchedMeta pages => AnswersMeet rt fetchedMeta pages rt.phase
  | .timeout => TimeoutMeets rt rt.phase
  | _ => True

instance (rt : MarketDataRuntime) (t : Time) (symbol : Symbol) (timeframe : Timeframe)
    (fetchedMeta : Except Exc Unit) : ∀ pages, Decidable (GoodAnswers rt t symbol timeframe fetchedMeta pages)
  | .ok _ => inferInstanceAs (Decidable (_ ∧ _))
  | .error _ => .isFalse id

instance (rt : MarketDataRuntime) (fetchedMeta : Except Exc Unit) (pages : Except Exc (List CandlePayload)) :
    DecidablePred (AnswersMeet rt fetchedMeta pages)
  | .backfilling .. => inferInstanceAs (Decidable (_ → _))
  | .idle | .backingOff .. | .connecting .. | .handshaking .. => .isTrue trivial

instance (rt : MarketDataRuntime) : DecidablePred (TimeoutMeets rt)
  | .backfilling .. => inferInstanceAs (Decidable (_ → _))
  | .idle | .backingOff .. | .connecting .. | .handshaking .. => .isTrue trivial

instance (rt : MarketDataRuntime) : DecidablePred (Meets rt)
  | .fetched fetchedMeta pages => inferInstanceAs (Decidable (AnswersMeet rt fetchedMeta pages rt.phase))
  | .timeout => inferInstanceAs (Decidable (TimeoutMeets rt rt.phase))
  | .message _ | .connectionLost _ | .heartbeatLost _ | .start .. | .processLive _ | .reconnect _ | .awake
  | .connect _ | .handshakeFailed _ => .isTrue trivial

/-- How a stretch of a call may end: a failed reconnect is left to the next poll, and a completed one makes a
started runtime ready, if its data are ready and the connection is still up. -/
structure Ends (call : Call) (t : Time) (result : MarketDataRuntime × Reply) : Prop where
  flags : Flags result.1
  phased : Phased result.1 result.1.phase
  retried : call ≠ .start → ∀ exc, result.2 = .raised exc →
    result.1.phase = .idle ∧ result.1.ws.status = .reconnecting
  recovered : call = .reconnect → ∀ n, result.2 = .returned n → result.1.started = true →
    result.1.ws.status = .connected → DataReady result.1 t → result.1.readiness t = .ok true

end Invariant

section Ends

variable {rt : MarketDataRuntime} {call : Call} {t : Time} {exc : Exc}

theorem Ends.pending (hflags : Flags rt) (hphased : Phased rt rt.phase) : Ends call t (rt, .pending) :=
  ⟨hflags, hphased, fun _ _ h => (by cases h), fun _ _ h => (by cases h)⟩

theorem Flags.same {rt' : MarketDataRuntime} (h : Flags rt) (hstarted : rt'.started = rt.started)
    (hmeta : rt'.metaOk = rt.metaOk) (hbackfill : rt'.backfillOk = rt.backfillOk)
    (hinitial : rt'.initialBackfillDone = rt.initialBackfillDone)
    (hquiet : rt'.ws.status = .connected → rt'.ws.backgroundError = none) : Flags rt' := by
  refine ⟨fun hs => ?_, hquiet⟩
  obtain ⟨hm, hb, hi⟩ := h.complete (hstarted ▸ hs)
  exact ⟨hmeta.trans hm, hbackfill.trans hb, hinitial.trans hi⟩

theorem ends_fail (h : Flags rt) (hstart : call = .start → rt.started = false)
    (hstatus : call ≠ .start → rt.ws.status = .reconnecting) : Ends call t (rt.fail call exc) := by
  by_cases hcall : call = .start
  · have hstarted := hstart hcall
    have hfail : rt.fail call exc = ({ rt.recordFailure exc with
        ws := rt.ws.discardBuffer
        phase := .idle }, .raised exc) := by
      unfold MarketDataRuntime.fail
      rw [if_pos hcall]
      rfl
    rw [hfail]
    refine ⟨⟨fun hs => ?_, h.quiet⟩, trivial, fun hne => absurd hcall hne, fun hre => ?_⟩
    · exact absurd (hstarted.symm.trans hs) Bool.false_ne_true
    · rw [hcall] at hre
      cases hre
  · have hfail : rt.fail call exc = ({ rt.recordReconnectFailure exc with
        ws := rt.ws.discardBuffer
        phase := .idle }, .raised exc) := by
      unfold MarketDataRuntime.fail
      rw [if_neg hcall]
      rfl
    rw [hfail]
    refine ⟨h.same rfl rfl rfl rfl h.quiet, trivial, fun _ _ _ => ⟨rfl, hstatus hcall⟩, fun _ n hn => ?_⟩
    cases hn

theorem ends_handshakeFailed (h : Flags rt) (hstart : call = .start → rt.started = false) :
    Ends call t (rt.handshakeFailed call exc) := by
  unfold MarketDataRuntime.handshakeFailed
  simp only
  split_ifs with hcall
  · exact ends_fail h hstart fun hne => absurd hcall hne
  · refine ends_fail ?_ hstart fun _ => rfl
    refine h.same rfl rfl rfl rfl fun hconnected => ?_
    cases hconnected

theorem readiness_returns (h : AllRegular rt.repository) : Returns (rt.readiness t) :=
  (returns_mapM fun _ _ => seriesReport_returns h).bind fun _ => returns_ok _

theorem ends_ingestLive (h : Flags rt) (hidle : rt.phase = .idle) (hcall : call ≠ .reconnect) :
    Ends call t (rt.ingestLive t) := by
  obtain ⟨n, hlive⟩ := ingestLive_returns rt t
  rw [hlive]
  refine ⟨h.same rfl rfl rfl rfl h.quiet, ?_, fun _ exc hexc => ?_, fun hre => absurd hre hcall⟩
  · have hphase : (afterRefresh (afterIngest { rt with ws := (rt.ws.drainEvents maxItems).1 }
        (rt.ws.liveQueue.take maxItems) t) t).phase = .idle := hidle
    simp only [hphase]
    trivial
  · cases hexc

theorem ends_finishReconnect (h : Flags rt) (hregular : AllRegular rt.repository)
    (hacked : rt.ws.subscriptionsExpected ≤ rt.ws.subscriptionsAcknowledged)
    (hbundles : (∀ symbol ∈ rt.ws.config.symbols, marketDataReady rt.repository t symbol = .ok true) →
      rt.strategyBundlesReady = true) : Ends call t (rt.finishReconnect call t) := by
  have hclean : Flags { rt with lastError := none, phase := .idle } := h.same rfl rfl rfl rfl h.quiet
  have hready : Returns (MarketDataRuntime.readiness { rt with lastError := none, phase := .idle } t) :=
    readiness_returns hregular
  obtain ⟨recovered, hrecovered⟩ := hready
  unfold MarketDataRuntime.finishReconnect
  simp only [hrecovered]
  cases recovered with
  | true =>
    simp only [↓reduceIte]
    split_ifs with hlive
    · exact ends_ingestLive hclean rfl (by rw [hlive]; decide)
    · exact ⟨hclean, trivial, fun _ _ hexc => (by cases hexc), fun _ _ _ _ _ _ => hrecovered⟩
  | false =>
    have hdegraded : Flags { rt with
        lastError := some "market_data_readiness_not_recovered"
        phase := .idle } := h.same rfl rfl rfl rfl h.quiet
    simp only [Bool.false_eq_true, ↓reduceIte]
    split_ifs with hlive
    · exact ends_ingestLive hdegraded rfl (by rw [hlive]; decide)
    · refine ⟨hdegraded, trivial, fun _ _ hexc => (by cases hexc), fun _ _ _ hstarted hconnected hdata => ?_⟩
      have hclear : DataReady { rt with lastError := none, phase := .idle } t :=
        ⟨hdata.conflicts, hdata.series, hdata.bundles⟩
      have htrue := readiness_eq_true hclear (hclean.complete hstarted) hacked (hbundles hdata.bundles)
        hconnected (h.quiet hconnected) rfl
      rw [hrecovered] at htrue
      cases htrue

theorem ends_finishStart (h : Flags rt) (hmeta : rt.metaOk = true) : Ends .start t rt.finishStart := by
  refine ⟨⟨fun _ => ⟨hmeta, rfl, rfl⟩, h.quiet⟩, trivial, fun hne => absurd rfl hne, fun hre => ?_⟩
  cases hre

theorem finishBackfills_eq (hregular : AllRegular rt.repository) (call : Call) (t : Time) : ∃ rt' ready,
    rt' = afterRefresh (afterIngest { rt with ws := rt.ws.endBuffer.1 } rt.ws.endBuffer.2 t) t ∧
    AllRegular rt'.repository ∧
    ((∀ symbol ∈ rt'.ws.config.symbols, marketDataReady rt'.repository t symbol = .ok true) → ready = true) ∧
      rt.finishBackfills call t = if call = .start then { rt' with strategyBundlesReady := ready }.finishStart
        else { rt' with strategyBundlesReady := ready }.finishReconnect call t := by
  obtain ⟨result, hresult⟩ := ingest_eq { rt with ws := rt.ws.endBuffer.1 } rt.ws.endBuffer.2 t
  have hflushed : AllRegular (afterRefresh (afterIngest { rt with ws := rt.ws.endBuffer.1 }
      rt.ws.endBuffer.2 t) t).repository :=
    allRegular_refreshed (allRegular_ingestedAll hregular t _) _ t
  obtain ⟨rt', hready⟩ : Returns ((afterRefresh (afterIngest { rt with ws := rt.ws.endBuffer.1 }
      rt.ws.endBuffer.2 t) t).refreshStrategyBundleReadiness t) :=
    (returns_mapM fun _ _ => marketDataReady_returns hflushed).bind fun _ => returns_ok _
  obtain ⟨ready, rfl, hbundles⟩ := bundles_of_refresh hready
  refine ⟨_, ready, rfl, hflushed, hbundles, ?_⟩
  unfold MarketDataRuntime.finishBackfills
  simp only [hresult, refreshWeeks_eq, hready]

theorem ends_finishBackfills (h : Flags rt) (hregular : AllRegular rt.repository)
    (hstart : call = .start → rt.started = false ∧ rt.metaOk = true)
    (hacked : rt.ws.subscriptionsExpected ≤ rt.ws.subscriptionsAcknowledged) :
    Ends call t (rt.finishBackfills call t) := by
  obtain ⟨_, ready, rfl, hflushed, hbundles, heq⟩ := finishBackfills_eq hregular call t
  have hflags : Flags { afterRefresh (afterIngest { rt with ws := rt.ws.endBuffer.1 } rt.ws.endBuffer.2 t) t with
      strategyBundlesReady := ready } := h.same rfl rfl rfl rfl h.quiet
  rw [heq]
  split_ifs with hcall
  · subst hcall
    exact ends_finishStart hflags (hstart rfl).2
  · exact ends_finishReconnect hflags hflushed hacked hbundles

theorem ends_nextBackfill (h : Flags rt) (hregular : AllRegular rt.repository)
    (hstart : call = .start → rt.started = false ∧ rt.metaOk = true)
    (hacked : rt.ws.subscriptionsExpected ≤ rt.ws.subscriptionsAcknowledged)
    (todo : List (Symbol × Timeframe)) : Ends call t (rt.nextBackfill call t todo) := by
  induction todo with
  | nil => exact ends_finishBackfills h hregular hstart hacked
  | cons series rest ih =>
    unfold MarketDataRuntime.nextBackfill
    split_ifs
    · exact ih
    · exact Ends.pending (h.same rfl rfl rfl rfl h.quiet) ⟨hstart, hacked⟩

theorem ends_startBackfills (h : Flags rt) (hregular : AllRegular rt.repository)
    (hstart : call = .start → rt.started = false ∧ rt.metaOk = true)
    (hacked : rt.ws.subscriptionsExpected ≤ rt.ws.subscriptionsAcknowledged)
    (hconnected : rt.ws.status = .connected) : Ends call t (rt.startBackfills call t) := by
  have hready : rt.transportReady = true := by
    unfold transportReady
    simp [hconnected, hacked]
  unfold MarketDataRuntime.startBackfills
  rw [if_neg (by simp [hready])]
  exact ends_nextBackfill h hregular hstart hacked _

theorem ends_awaitAcks (h : Flags rt) (hregular : AllRegular rt.repository)
    (hstart : call = .start → rt.started = false ∧ rt.metaOk = true) : Ends call t (rt.awaitAcks call t) := by
  unfold MarketDataRuntime.awaitAcks
  split_ifs with hacked
  · exact Ends.pending (h.same rfl rfl rfl rfl h.quiet) hstart
  · exact ends_startBackfills (h.same rfl rfl rfl rfl fun _ => rfl) hregular hstart (not_lt.mp hacked) rfl

theorem ends_backfillFailed (h : Flags rt) (hcall : call = .start) (hstarted : rt.started = false) :
    Ends call t (rt.backfillFailed call exc) := by
  refine ends_fail ⟨fun hs => ?_, h.quiet⟩ (fun _ => hstarted) fun hne => absurd hcall hne
  exact absurd (hstarted.symm.trans hs) Bool.false_ne_true

theorem ends_backfillSymbol (h : Flags rt) (hregular : AllRegular rt.repository)
    (hstart : call = .start → rt.started = false ∧ rt.metaOk = true)
    (hacked : rt.ws.subscriptionsExpected ≤ rt.ws.subscriptionsAcknowledged) (symbol : Symbol)
    (timeframe : Timeframe) (rest : List (Symbol × Timeframe)) {fetchedMeta : Except Exc Unit}
    {pages : Except Exc (List CandlePayload)}
    (hgood : call ≠ .start → GoodAnswers rt t symbol timeframe fetchedMeta pages) :
    Ends call t (rt.backfillSymbol call t symbol timeframe rest fetchedMeta pages) := by
  have hfailed : ∀ {rt' : MarketDataRuntime} {exc : Exc}, Flags rt' → rt'.started = rt.started → call = .start →
      Ends call t (rt'.backfillFailed call exc) := fun h' hstarted hcall =>
    ends_backfillFailed h' hcall (hstarted.trans (hstart hcall).1)
  unfold MarketDataRuntime.backfillSymbol
  cases fetchedMeta with
  | error exc =>
    refine hfailed h rfl ?_
    by_contra hcall
    cases pages with
    | error exc => exact hgood hcall
    | ok items => cases (hgood hcall).1
  | ok u =>
    have hmeta : Flags { rt with metaOk := true } := by
      refine ⟨fun hs => ?_, h.quiet⟩
      exact ⟨rfl, (h.complete hs).backfillOk, (h.complete hs).initialBackfillDone⟩
    cases pages with
    | error exc =>
      refine hfailed hmeta rfl ?_
      by_contra hcall
      exact hgood hcall
    | ok items =>
      have hstart' : rt.backfillStart symbol timeframe t =
          { rt with metaOk := true }.backfillStart symbol timeframe t := rfl
      simp only
      cases hfetched : fetchCandles symbol timeframe
          ({ rt with metaOk := true }.backfillStart symbol timeframe t) t t items with
      | error exc =>
        refine hfailed hmeta rfl ?_
        by_contra hcall
        have hread := (hgood hcall).2
        rw [hstart', hfetched] at hread
        cases hread
      | ok raws =>
        obtain ⟨result, hresult⟩ := ingest_eq { rt with
          metaOk := true
          ws := { rt.ws with received := rt.ws.received ++ raws } } raws t
        have hingested : AllRegular (afterIngest { rt with
            metaOk := true
            ws := { rt.ws with received := rt.ws.received ++ raws } } raws t).repository :=
          allRegular_ingestedAll hregular t raws
        have hreported : Returns (seriesReport _ t symbol timeframe) := seriesReport_returns hingested
        obtain ⟨report, hreport⟩ := hreported
        simp only [hresult, hreport]
        have hflags : Flags ((afterIngest { rt with
            metaOk := true
            ws := { rt.ws with received := rt.ws.received ++ raws } } raws t).recordBackfillSuccess t) :=
          ⟨fun hs => ⟨rfl, rfl, (h.complete hs).initialBackfillDone⟩, h.quiet⟩
        exact ends_nextBackfill hflags hingested (fun hcall => ⟨(hstart hcall).1, rfl⟩) hacked rest

theorem ends_beginReconnect (h : Flags rt) (hcall : call ≠ .start) (hstatus : rt.ws.status = .reconnecting) :
    Ends call t (rt.beginReconnect call t) :=
  Ends.pending (h.same rfl rfl rfl rfl h.quiet) ⟨hcall, hstatus⟩

end Ends

section Steps

variable {rt : MarketDataRuntime} {call : Call} {t : Time} {action : Action}

def inProgress : Phase → Option (Call × Time)
  | .idle => none
  | .backingOff call t | .connecting call t | .handshaking call t => some (call, t)
  | .backfilling call t .. => some (call, t)

theorem phased_reads {phase : Phase} {f : WebSocketFeed} (h : Phased rt phase) (hreads : Reads rt.ws f) :
    Phased { rt with ws := f } phase := by
  have hexpected := hreads.expected
  have hacked := hreads.acknowledged
  cases phase with
  | idle => trivial
  | backingOff call t =>
    refine ⟨h.1, ?_⟩
    rcases hreads.status with ⟨hsame, _⟩ | hlost
    · exact hsame.trans h.2
    · exact hlost
  | connecting call t => exact h
  | handshaking call t => exact h
  | backfilling call t symbol timeframe rest => exact ⟨h.1, by have := h.2; simp only; omega⟩

theorem flags_reads {f : WebSocketFeed} (h : Flags rt) (hreads : Reads rt.ws f) : Flags { rt with ws := f } := by
  refine h.same rfl rfl rfl rfl fun hconnected => ?_
  rcases hreads.status with ⟨hsame, herror⟩ | hlost
  · exact herror.trans (h.quiet (hsame.symm.trans hconnected))
  · cases hlost.symm.trans hconnected

theorem ends_reads {f : WebSocketFeed} (h : Flags rt) (hphased : Phased rt rt.phase) (hreads : Reads rt.ws f) :
    Ends call t ({ rt with ws := f }, .pending) :=
  Ends.pending (flags_reads h hreads) (phased_reads hphased hreads)

theorem ends_message (h : Flags rt) (hregular : AllRegular rt.repository) (hphased : Phased rt rt.phase)
    (hcall : inProgress rt.phase = some (call, t)) (m : Message) : Ends call t (rt.message m) := by
  have hread := reads_readOnce rt.ws m
  have hloop : Ends call t ({ rt with ws := rt.ws.readerLoop m }, .pending) :=
    ends_reads h hphased (reads_readerLoop rt.ws m)
  unfold MarketDataRuntime.message
  cases hphase : rt.phase with
  | idle =>
    rw [hphase] at hcall
    cases hcall
  | connecting call' t' =>
    exact Ends.pending h hphased
  | handshaking call' t' =>
    rw [hphase] at hcall hphased
    cases hcall
    rcases hresult : rt.ws.readOnce m with ⟨ws, _ | exc⟩
    · rw [hresult] at hread
      have hflags := flags_reads h hread
      exact ends_awaitAcks (hflags.same rfl rfl rfl rfl hflags.quiet) hregular hphased
    · rw [hresult] at hread
      have hflags := flags_reads h hread
      exact ends_handshakeFailed (hflags.same rfl rfl rfl rfl hflags.quiet) fun hc => (hphased hc).1
  | backingOff call' t' =>
    rw [hphase] at hloop
    exact hloop
  | backfilling call' t' symbol timeframe rest =>
    rw [hphase] at hloop
    exact hloop

theorem ends_timeout (h : Flags rt) (hphased : Phased rt rt.phase) (hmeets : Meets rt .timeout)
    (hcall : inProgress rt.phase = some (call, t)) : Ends call t rt.timeout := by
  have hlost : Flags { rt with ws := rt.ws.lose "WebSocket reconnect cancelled" } := by
    refine h.same rfl rfl rfl rfl fun hconnected => ?_
    cases hconnected
  have hwaiting : Ends call t (rt, .pending) := Ends.pending h hphased
  unfold MarketDataRuntime.timeout
  unfold Meets TimeoutMeets at hmeets
  cases hphase : rt.phase with
  | idle =>
    rw [hphase] at hcall
    cases hcall
  | backingOff call' t' =>
    rw [hphase] at hcall hphased
    cases hcall
    simp only
    rw [if_neg hphased.1]
    exact ends_fail h (fun hc => absurd hc hphased.1) fun _ => hphased.2
  | connecting call' t' =>
    rw [hphase] at hcall
    cases hcall
    simp only
    split_ifs with hc
    · exact hwaiting
    · exact ends_fail (hlost.same rfl rfl rfl rfl hlost.quiet) (fun hc' => absurd hc' hc) fun _ => rfl
  | handshaking call' t' =>
    rw [hphase] at hcall
    cases hcall
    simp only
    split_ifs with hc
    · exact hwaiting
    · exact ends_fail (hlost.same rfl rfl rfl rfl hlost.quiet) (fun hc' => absurd hc' hc) fun _ => rfl
  | backfilling call' t' symbol timeframe rest =>
    rw [hphase] at hcall hmeets
    cases hcall
    simp only
    split_ifs with hc
    · exact hwaiting
    · exact ends_fail h (fun hc' => absurd hc' hc) hmeets

theorem ends_step (h : Flags rt) (hregular : AllRegular rt.repository) (hphased : Phased rt rt.phase)
    (hmeets : Meets rt action) (hcall : inProgress rt.phase = some (call, t)) :
    Ends call t (rt.step action) := by
  have hbusy : rt.phase ≠ .idle := by
    intro hidle
    rw [hidle] at hcall
    cases hcall
  have hwaiting : Ends call t (rt, .pending) := Ends.pending h hphased
  cases action with
  | message m => exact ends_message h hregular hphased hcall m
  | connectionLost error => exact ends_reads h hphased (reads_readerLost rt.ws error)
  | heartbeatLost error => exact ends_reads h hphased (reads_heartbeatLost rt.ws error)
  | start t' fetchedMeta =>
    unfold MarketDataRuntime.step
    simp only [if_neg hbusy]
    exact hwaiting
  | processLive t' =>
    unfold MarketDataRuntime.step
    simp only [if_neg hbusy]
    exact hwaiting
  | reconnect t' =>
    unfold MarketDataRuntime.step
    simp only [if_neg hbusy]
    exact hwaiting
  | awake =>
    unfold MarketDataRuntime.step
    cases hphase : rt.phase with
    | backingOff call' t' =>
      rw [hphase] at hphased
      refine Ends.pending (h.same rfl rfl rfl rfl fun hconnected => ?_) fun hc => absurd hc hphased.1
      cases hconnected
    | idle => exact hwaiting
    | connecting call' t' => exact hwaiting
    | handshaking call' t' => exact hwaiting
    | backfilling call' t' symbol timeframe rest => exact hwaiting
  | connect failure =>
    unfold MarketDataRuntime.step
    cases hphase : rt.phase with
    | connecting call' t' =>
      rw [hphase] at hcall hphased
      cases hcall
      cases failure with
      | some exc => exact ends_handshakeFailed h fun hc => (hphased hc).1
      | none =>
        exact ends_awaitAcks (h.same rfl rfl rfl rfl h.quiet) hregular hphased
    | idle => exact hwaiting
    | backingOff call' t' => exact hwaiting
    | handshaking call' t' => exact hwaiting
    | backfilling call' t' symbol timeframe rest => exact hwaiting
  | handshakeFailed exc =>
    unfold MarketDataRuntime.step
    cases hphase : rt.phase with
    | handshaking call' t' =>
      rw [hphase] at hcall hphased
      cases hcall
      exact ends_handshakeFailed h fun hc => (hphased hc).1
    | idle => exact hwaiting
    | backingOff call' t' => exact hwaiting
    | connecting call' t' => exact hwaiting
    | backfilling call' t' symbol timeframe rest => exact hwaiting
  | fetched fetchedMeta pages =>
    unfold MarketDataRuntime.step
    unfold Meets AnswersMeet at hmeets
    cases hphase : rt.phase with
    | backfilling call' t' symbol timeframe rest =>
      rw [hphase] at hcall hphased hmeets
      cases hcall
      exact ends_backfillSymbol h hregular hphased.1 hphased.2 symbol timeframe rest hmeets
    | idle => exact hwaiting
    | backingOff call' t' => exact hwaiting
    | connecting call' t' => exact hwaiting
    | handshaking call' t' => exact hwaiting
  | timeout => exact ends_timeout h hphased hmeets hcall

theorem flags_idle (h : Flags rt) (hidle : rt.phase = .idle) :
    Flags (rt.step action).1 ∧ Phased (rt.step action).1 (rt.step action).1.phase := by
  have hphased : Phased rt rt.phase := by
    rw [hidle]
    trivial
  have hstays : ∀ {f : WebSocketFeed}, Reads rt.ws f →
      Flags { rt with ws := f } ∧ Phased { rt with ws := f } rt.phase := fun hreads =>
    ⟨flags_reads h hreads, phased_reads hphased hreads⟩
  have hwaiting : Flags rt ∧ Phased rt rt.phase := ⟨h, hphased⟩
  cases action with
  | message m =>
    have hloop := hstays (reads_readerLoop rt.ws m)
    unfold MarketDataRuntime.step MarketDataRuntime.message
    simp only [hidle] at hloop ⊢
    exact hloop
  | connectionLost error => exact hstays (reads_readerLost rt.ws error)
  | heartbeatLost error => exact hstays (reads_heartbeatLost rt.ws error)
  | start t fetchedMeta =>
    unfold MarketDataRuntime.step MarketDataRuntime.start
    simp only [if_pos hidle]
    split_ifs with hstarted
    · exact hwaiting
    · have hnew : rt.started = false := by simpa using hstarted
      cases fetchedMeta with
      | error exc =>
        have hfail : Ends .start t (MarketDataRuntime.fail { rt with ws := rt.ws.beginBuffer } .start exc) :=
          ends_fail (h.same rfl rfl rfl rfl h.quiet) (fun _ => hnew) fun hne => absurd rfl hne
        exact ⟨hfail.flags, hfail.phased⟩
      | ok u =>
        refine ⟨⟨fun hs => absurd (hnew.symm.trans hs) Bool.false_ne_true, fun hc => by cases hc⟩, ?_⟩
        exact fun _ => ⟨hnew, rfl⟩
  | processLive t =>
    unfold MarketDataRuntime.step MarketDataRuntime.processLive
    simp only [if_pos hidle]
    split_ifs with hstatus
    · have hlive : Ends .processLive t (rt.ingestLive t) := ends_ingestLive h hidle (by decide)
      exact ⟨hlive.flags, hlive.phased⟩
    · have hbegin : Ends .processLive t (rt.beginReconnect .processLive t) :=
        ends_beginReconnect h (by decide) (not_not.mp hstatus)
      exact ⟨hbegin.flags, hbegin.phased⟩
  | reconnect t =>
    unfold MarketDataRuntime.step MarketDataRuntime.reconnect
    simp only [if_pos hidle]
    split_ifs with hstatus
    · exact hwaiting
    · have hbegin : Ends .reconnect t (rt.beginReconnect .reconnect t) :=
        ends_beginReconnect h (by decide) (not_not.mp hstatus)
      exact ⟨hbegin.flags, hbegin.phased⟩
  | awake =>
    unfold MarketDataRuntime.step
    simp only [hidle]
    rw [hidle] at hwaiting
    exact hwaiting
  | connect failure =>
    unfold MarketDataRuntime.step
    simp only [hidle]
    rw [hidle] at hwaiting
    exact hwaiting
  | handshakeFailed exc =>
    unfold MarketDataRuntime.step
    simp only [hidle]
    rw [hidle] at hwaiting
    exact hwaiting
  | fetched fetchedMeta pages =>
    unfold MarketDataRuntime.step
    simp only [hidle]
    rw [hidle] at hwaiting
    exact hwaiting
  | timeout =>
    unfold MarketDataRuntime.step MarketDataRuntime.timeout
    simp only [hidle]
    rw [hidle] at hwaiting
    exact hwaiting

end Steps

section ProcessLive

variable {rt : MarketDataRuntime} {t : Time} {exc : Exc} {action : Action}

def GoesOn (t : Time) (reconnected processed : MarketDataRuntime × Reply) : Prop :=
  match reconnected.2 with
  | .returned _ => processed = reconnected.1.ingestLive t
  | _ => processed.2 = reconnected.2

theorem goesOn_handshakeFailed (rt : MarketDataRuntime) (phase : Phase) (exc : Exc) :
    GoesOn t (rt.handshakeFailed .reconnect exc) ({ rt with phase }.handshakeFailed .processLive exc) := rfl

theorem goesOn_finishReconnect (rt : MarketDataRuntime) (phase : Phase) (t : Time) :
    GoesOn t (rt.finishReconnect .reconnect t) ({ rt with phase }.finishReconnect .processLive t) := by
  unfold MarketDataRuntime.finishReconnect
  simp only
  cases hready : { rt with lastError := none, phase := .idle }.readiness t with
  | error exc => rfl
  | ok recovered => rfl

theorem goesOn_finishBackfills (rt : MarketDataRuntime) (phase : Phase) (t : Time) :
    GoesOn t (rt.finishBackfills .reconnect t) ({ rt with phase }.finishBackfills .processLive t) := by
  obtain ⟨result, hresult⟩ := ingest_eq { rt with ws := rt.ws.endBuffer.1 } rt.ws.endBuffer.2 t
  obtain ⟨result', hresult'⟩ := ingest_eq { rt with ws := rt.ws.endBuffer.1, phase } rt.ws.endBuffer.2 t
  unfold MarketDataRuntime.finishBackfills
  simp only [hresult, hresult', refreshWeeks_eq]
  unfold MarketDataRuntime.refreshStrategyBundleReadiness
  simp only [afterRefresh, afterIngest]
  cases rt.ws.endBuffer.1.config.symbols.mapM (marketDataReady
      (refreshed rt.ws.endBuffer.1.config.symbols t
        (List.foldl (IngestFacts.ingested t) rt.repository rt.ws.endBuffer.2)) t) with
  | error exc => rfl
  | ok ready => exact goesOn_finishReconnect _ phase t

theorem goesOn_nextBackfill (rt : MarketDataRuntime) (phase : Phase) (t : Time)
    (todo : List (Symbol × Timeframe)) :
    GoesOn t (rt.nextBackfill .reconnect t todo) ({ rt with phase }.nextBackfill .processLive t todo) := by
  induction todo with
  | nil => exact goesOn_finishBackfills rt phase t
  | cons series rest ih =>
    unfold MarketDataRuntime.nextBackfill
    by_cases hempty : rt.repository.getLatest series.1 series.2 = none
    · rw [if_pos ⟨by decide, hempty⟩, if_pos ⟨by decide, hempty⟩]
      exact ih
    · rw [if_neg fun h => hempty h.2, if_neg fun h => hempty h.2]
      rfl

theorem goesOn_awaitAcks (rt : MarketDataRuntime) (phase : Phase) (t : Time) :
    GoesOn t (rt.awaitAcks .reconnect t) ({ rt with phase }.awaitAcks .processLive t) := by
  unfold MarketDataRuntime.awaitAcks
  simp only
  split_ifs
  · rfl
  · unfold MarketDataRuntime.startBackfills
    cases hready : { rt with ws := rt.ws.connectionUp }.transportReady with
    | true =>
      have hready' : { rt with ws := rt.ws.connectionUp, phase }.transportReady = true := hready
      rw [hready']
      exact goesOn_nextBackfill _ phase t _
    | false =>
      have hready' : { rt with ws := rt.ws.connectionUp, phase }.transportReady = false := hready
      rw [hready']
      rfl

theorem goesOn_backfillSymbol (rt : MarketDataRuntime) (phase : Phase) (t : Time) (symbol : Symbol)
    (timeframe : Timeframe) (rest : List (Symbol × Timeframe)) (fetchedMeta : Except Exc Unit)
    (pages : Except Exc (List CandlePayload)) :
    GoesOn t (rt.backfillSymbol .reconnect t symbol timeframe rest fetchedMeta pages)
      ({ rt with phase }.backfillSymbol .processLive t symbol timeframe rest fetchedMeta pages) := by
  unfold MarketDataRuntime.backfillSymbol
  cases fetchedMeta with
  | error exc => rfl
  | ok u =>
    cases pages with
    | error exc => rfl
    | ok items =>
      simp only
      have hstart : { rt with metaOk := true, phase }.backfillStart symbol timeframe t =
          { rt with metaOk := true }.backfillStart symbol timeframe t := rfl
      rw [hstart]
      cases fetchCandles symbol timeframe ({ rt with metaOk := true }.backfillStart symbol timeframe t) t t
          items with
      | error exc => rfl
      | ok raws =>
        obtain ⟨result, hresult⟩ := ingest_eq { rt with
          metaOk := true
          ws := { rt.ws with received := rt.ws.received ++ raws } } raws t
        obtain ⟨result', hresult'⟩ := ingest_eq { rt with
          metaOk := true
          ws := { rt.ws with received := rt.ws.received ++ raws }
          phase } raws t
        simp only [hresult, hresult', afterIngest]
        cases seriesReport (raws.foldl (IngestFacts.ingested t) rt.repository) t symbol timeframe with
        | error exc => rfl
        | ok report => exact goesOn_nextBackfill _ phase t rest

/-- The phase of the same call, made as `reconnect` itself. -/
def reconnectPhase : Phase → Phase
  | .backingOff _ t => .backingOff .reconnect t
  | .connecting _ t => .connecting .reconnect t
  | .handshaking _ t => .handshaking .reconnect t
  | .backfilling _ t symbol timeframe rest => .backfilling .reconnect t symbol timeframe rest
  | .idle => .idle

def asReconnect (rt : MarketDataRuntime) : MarketDataRuntime := { rt with phase := reconnectPhase rt.phase }

theorem goesOn_step (hcall : inProgress rt.phase = some (.processLive, t)) (action : Action) :
    GoesOn t ((asReconnect rt).step action) (rt.step action) := by
  cases hphase : rt.phase with
  | idle =>
    rw [hphase] at hcall
    cases hcall
  | backingOff call t' =>
    rw [hphase] at hcall
    cases hcall
    unfold asReconnect MarketDataRuntime.step
    simp only [hphase, reconnectPhase]
    cases action with
    | timeout =>
      unfold MarketDataRuntime.timeout
      simp only [hphase]
      rfl
    | message m =>
      unfold MarketDataRuntime.message
      simp only [hphase]
      rfl
    | _ => rfl
  | connecting call t' =>
    rw [hphase] at hcall
    cases hcall
    unfold asReconnect MarketDataRuntime.step
    simp only [hphase, reconnectPhase]
    cases action with
    | timeout =>
      unfold MarketDataRuntime.timeout
      simp only [hphase]
      rfl
    | message m =>
      unfold MarketDataRuntime.message
      simp only [hphase]
      rfl
    | connect failure =>
      cases failure with
      | some exc => exact goesOn_handshakeFailed _ rt.phase exc
      | none => exact goesOn_awaitAcks { rt with
          ws := rt.ws.subscribe
          phase := .connecting .reconnect t } (.connecting .processLive t) t
    | _ => rfl
  | handshaking call t' =>
    rw [hphase] at hcall
    cases hcall
    unfold asReconnect MarketDataRuntime.step
    simp only [hphase, reconnectPhase]
    cases action with
    | timeout =>
      unfold MarketDataRuntime.timeout
      simp only [hphase]
      rfl
    | message m =>
      unfold MarketDataRuntime.message
      simp only [hphase]
      rcases hresult : rt.ws.readOnce m with ⟨ws, _ | exc⟩
      · exact goesOn_awaitAcks { rt with ws, phase := .handshaking .reconnect t }
          (.handshaking .processLive t) t
      · exact goesOn_handshakeFailed { rt with ws, phase := .handshaking .reconnect t } rt.phase exc
    | handshakeFailed exc =>
      exact goesOn_handshakeFailed { rt with phase := .handshaking .reconnect t } rt.phase exc
    | _ => rfl
  | backfilling call t' symbol timeframe rest =>
    rw [hphase] at hcall
    cases hcall
    unfold asReconnect MarketDataRuntime.step
    simp only [hphase, reconnectPhase]
    cases action with
    | timeout =>
      unfold MarketDataRuntime.timeout
      simp only [hphase]
      rfl
    | message m =>
      unfold MarketDataRuntime.message
      simp only [hphase]
      rfl
    | fetched fetchedMeta pages =>
      exact goesOn_backfillSymbol { rt with phase := .backfilling .reconnect t symbol timeframe rest }
        rt.phase t symbol timeframe rest fetchedMeta pages
    | _ => rfl

end ProcessLive

section Runs

variable {rt : MarketDataRuntime} {actions : List Action} {action : Action}

structure Sound (rt : MarketDataRuntime) : Prop where
  guarded : Guarded (fun rt => AllRegular rt.repository) rt
  flags : Flags rt
  phased : Phased rt rt.phase

def AllMeet : MarketDataRuntime → List Action → Prop
  | _, [] => True
  | rt, action :: actions => Meets rt action ∧ AllMeet (rt.step action).1 actions

instance : ∀ rt actions, Decidable (AllMeet rt actions)
  | _, [] => .isTrue trivial
  | rt, action :: actions =>
    have := instDecidableAllMeet (rt.step action).1 actions
    inferInstanceAs (Decidable (Meets rt action ∧ AllMeet (rt.step action).1 actions))

theorem allMeet_append : AllMeet rt (actions ++ [action]) ↔ AllMeet rt actions ∧ Meets (rt.run actions) action := by
  induction actions generalizing rt with
  | nil => simp [AllMeet, MarketDataRuntime.run]
  | cons first actions ih =>
    rw [List.cons_append, AllMeet, ih, AllMeet, and_assoc]
    rfl

theorem sound_step (h : Sound rt) (hmeets : Meets rt action) : Sound (rt.step action).1 := by
  have hguarded := guarded_step regularRules h.guarded action
  cases hcall : inProgress rt.phase with
  | none =>
    have hidle : rt.phase = .idle := by
      cases hphase : rt.phase with
      | idle => rfl
      | backingOff call t =>
        rw [hphase] at hcall
        cases hcall
      | connecting call t =>
        rw [hphase] at hcall
        cases hcall
      | handshaking call t =>
        rw [hphase] at hcall
        cases hcall
      | backfilling call t symbol timeframe rest =>
        rw [hphase] at hcall
        cases hcall
    have hstep : Flags (rt.step action).1 ∧ Phased (rt.step action).1 (rt.step action).1.phase :=
      flags_idle h.flags hidle
    exact ⟨hguarded, hstep.1, hstep.2⟩
  | some current =>
    obtain ⟨call, t⟩ := current
    have hends := ends_step h.flags h.guarded.data h.phased hmeets hcall
    exact ⟨hguarded, hends.flags, hends.phased⟩

theorem sound_run (h : Sound rt) (hmeets : AllMeet rt actions) : Sound (rt.run actions) := by
  induction actions generalizing rt with
  | nil => exact h
  | cons action actions ih => exact ih (sound_step h hmeets.1) hmeets.2

/-- What a step of a reconnect does to a started runtime. A reconnect that completes leaves it ready, if the
connection is still up and the data are ready, and `process_live` goes on from there. One that fails is made
again by the next poll. -/
structure Recovers (rt : MarketDataRuntime) (action : Action) : Prop where
  ready : ∀ call t, inProgress rt.phase = some (call, t) → call ≠ .start →
    ∀ n, ((asReconnect rt).step action).2 = .returned n →
    (call = .processLive → rt.step action = ((asReconnect rt).step action).1.ingestLive t) ∧
    (((asReconnect rt).step action).1.started = true → ((asReconnect rt).step action).1.ws.status = .connected →
      DataReady ((asReconnect rt).step action).1 t → ((asReconnect rt).step action).1.readiness t = .ok true)
  retried : ∀ call t, inProgress rt.phase = some (call, t) → call ≠ .start → rt.started = true →
    ∀ exc, (rt.step action).2 = .raised exc →
    ∀ t', ((rt.step action).1.step (.processLive t')).1.phase = .backingOff .processLive t'

theorem inProgress_asReconnect {call : Call} {t : Time} (h : inProgress rt.phase = some (call, t)) :
    inProgress (asReconnect rt).phase = some (.reconnect, t) := by
  unfold asReconnect
  simp only
  cases hphase : rt.phase with
  | idle =>
    rw [hphase] at h
    cases h
  | backingOff call' t' =>
    rw [hphase] at h
    cases h
    rfl
  | connecting call' t' =>
    rw [hphase] at h
    cases h
    rfl
  | handshaking call' t' =>
    rw [hphase] at h
    cases h
    rfl
  | backfilling call' t' symbol timeframe rest =>
    rw [hphase] at h
    cases h
    rfl

theorem phased_asReconnect (h : Phased rt rt.phase) : Phased (asReconnect rt) (asReconnect rt).phase := by
  unfold asReconnect
  simp only
  cases hphase : rt.phase with
  | idle => trivial
  | backingOff call t =>
    rw [hphase] at h
    exact ⟨by decide, h.2⟩
  | connecting call t => exact fun hc => by cases hc
  | handshaking call t => exact fun hc => by cases hc
  | backfilling call t symbol timeframe rest =>
    rw [hphase] at h
    exact ⟨fun hc => (by cases hc), h.2⟩

theorem meets_asReconnect {call : Call} {t : Time} (h : Meets rt action)
    (hcall : inProgress rt.phase = some (call, t)) (hne : call ≠ .start) : Meets (asReconnect rt) action := by
  cases action with
  | fetched fetchedMeta pages =>
    unfold Meets AnswersMeet asReconnect at *
    simp only
    cases hphase : rt.phase with
    | backfilling call' t' symbol timeframe rest =>
      rw [hphase] at h hcall
      cases hcall
      exact fun _ => h hne
    | _ => trivial
  | timeout =>
    unfold Meets TimeoutMeets asReconnect at *
    simp only
    cases hphase : rt.phase with
    | backfilling call' t' symbol timeframe rest =>
      rw [hphase] at h hcall
      cases hcall
      exact fun _ => h hne
    | _ => trivial
  | _ => trivial

theorem retries (hidle : rt.phase = .idle) (hstatus : rt.ws.status = .reconnecting) (t : Time) :
    (rt.step (.processLive t)).1.phase = .backingOff .processLive t := by
  unfold MarketDataRuntime.step MarketDataRuntime.processLive
  simp only [if_pos hidle]
  rw [if_neg (not_not.mpr hstatus)]
  rfl

theorem recovers_of_sound (h : Sound rt) (hmeets : Meets rt action) : Recovers rt action := by
  refine ⟨fun call t hcall hne n hn => ⟨fun hlive => ?_, fun hstarted hconnected hdata => ?_⟩,
    fun call t hcall hne _ exc hexc t' => ?_⟩
  · subst hlive
    have hgoes := goesOn_step hcall action
    unfold GoesOn at hgoes
    rw [hn] at hgoes
    exact hgoes
  · have hflags : Flags (asReconnect rt) := h.flags.same rfl rfl rfl rfl h.flags.quiet
    have hends := ends_step hflags h.guarded.data (phased_asReconnect h.phased)
      (meets_asReconnect hmeets hcall hne) (inProgress_asReconnect hcall)
    exact hends.recovered rfl n hn hstarted hconnected hdata
  · have hends := ends_step h.flags h.guarded.data h.phased hmeets hcall
    obtain ⟨hidle, hstatus⟩ := hends.retried hne exc hexc
    exact retries hidle hstatus t'

theorem sound_fresh (config : HyperliquidPublicConfig) : Sound { ws := { config } } := by
  refine ⟨⟨?_, ⟨by simp, by simp⟩, trivial⟩, ⟨fun hs => (by cases hs), fun hc => (by cases hc)⟩, trivial⟩
  intro c hc
  cases hc

/-- As long as no fetch of a reconnect fails, and no reconnect runs out of time with its connection up, the
readiness is recovered by the next reconnect that completes. -/
theorem readiness_recoverable (config : HyperliquidPublicConfig) {actions : List Action} {action : Action}
    (hmeets : AllMeet { ws := { config } } (actions ++ [action])) :
    Recovers (MarketDataRuntime.run { ws := { config } } actions) action := by
  obtain ⟨hrun, hlast⟩ := allMeet_append.mp hmeets
  exact recovers_of_sound (sound_run (sound_fresh config) hrun) hlast

def btcConfig : HyperliquidPublicConfig := { symbols := [.BTC], timeframes := [.daily] }

def btcDaily (price : Decimal) : CandlePayload :=
  { s := "BTC", i := "1d", t := 1704067200000, T := 1704153599999
    o := 100, h := 110, l := 90, c := price, v := 10 }

def reconnecting : List Action :=
  [.start (19723 * day) (.ok ()), .connect none, .message (.subscriptionResponse "BTC" "1d"),
    .fetched (.ok ()) (.ok [btcDaily 100]), .connectionLost "closed", .processLive (19723 * day + second), .awake,
    .connect none, .message (.subscriptionResponse "BTC" "1d")]

theorem completed_reconnect_recovers :
    Recovers (MarketDataRuntime.run { ws := { config := btcConfig } } reconnecting)
      (.fetched (.ok ()) (.ok [btcDaily 101])) := by
  have hmeets : AllMeet { ws := { config := btcConfig } }
      (reconnecting ++ [.fetched (.ok ()) (.ok [btcDaily 101])]) := by decide +kernel
  exact readiness_recoverable btcConfig hmeets

/-- A reconnect whose backfill fails is not made again: the connection is up. -/
theorem failed_backfill_is_not_retried : ¬ ∀ (config : HyperliquidPublicConfig) (actions : List Action)
    (action : Action), Recovers (MarketDataRuntime.run { ws := { config } } actions) action := by
  intro h
  have hretried := (h btcConfig reconnecting
    (.fetched (.ok ()) (.error (.runtimeError "candleSnapshot failed")))).retried .processLive
    (19723 * day + second) (by decide +kernel) (by decide) (by decide +kernel)
    (.runtimeError "candleSnapshot failed") (by decide +kernel) (19723 * day + 2 * second)
  revert hretried
  decide +kernel

end Runs

end TradingBot.Market.Recoverability
