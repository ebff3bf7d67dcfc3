import TradingBot.Market.RuntimeFacts

namespace TradingBot.Market.RuntimeRules

open Market.Models Market.Repository Market.Quality Market.Provider Market.Feed Market.Ingest Market.IngestFacts
open Market.Runtime Market.RuntimeFacts MarketDataRuntime Exceptions
open Library.Outcome (mapM_ok_mem)

structure Provider (f : WebSocketFeed) : Prop where
  queue : ∀ raw ∈ f.liveQueue, raw.timeframe ≠ .weekly
  buffer : ∀ raw ∈ f.buffer, raw.timeframe ≠ .weekly

section Feed

variable {f f' : WebSocketFeed}

theorem Provider.same (h : Provider f) (hqueue : f'.liveQueue = f.liveQueue) (hbuffer : f'.buffer = f.buffer) :
    Provider f' :=
  ⟨hqueue ▸ h.queue, hbuffer ▸ h.buffer⟩

theorem provider_append {l : List RawCandle} {raw : RawCandle} (h : ∀ x ∈ l, x.timeframe ≠ .weekly)
    (hraw : raw.timeframe ≠ .weekly) : ∀ x ∈ l ++ [raw], x.timeframe ≠ .weekly := by
  intro x hx
  rcases List.mem_append.mp hx with hx | hx
  · exact h x hx
  · rw [List.mem_singleton.mp hx]
    exact hraw

theorem provider_handleItem {item : CandlePayload} {now : Time} (h : Provider f)
    (hitem : f.handleItem item now = .ok f') : Provider f' := by
  unfold WebSocketFeed.handleItem at hitem
  cases hparse : parseCandle item item.s.toUpper item.i now with
  | error exc =>
    simp only [hparse, bind, Except.bind] at hitem
    split_ifs at hitem
    cases hitem
    exact h
  | ok raw =>
    simp only [hparse, bind, Except.bind] at hitem
    split_ifs at hitem with hskip hdirect
    · cases hitem
      exact h
    · cases hitem
      exact ⟨provider_append h.queue (timeframe_of_takesIn (by simpa using hskip) hparse), h.buffer⟩
    · cases hitem
      exact ⟨h.queue, provider_append h.buffer (timeframe_of_takesIn (by simpa using hskip) hparse)⟩

theorem provider_handleCandle {now : Time} {items : List CandlePayload} (h : Provider f) :
    Provider (f.handleCandle now items).1 := by
  induction items generalizing f with
  | nil => exact h
  | cons item items ih =>
    unfold WebSocketFeed.handleCandle
    cases hitem : f.handleItem item now with
    | error exc => exact h
    | ok f' => exact ih (provider_handleItem h hitem)

theorem provider_readOnce (h : Provider f) (m : Message) : Provider (f.readOnce m).1 := by
  cases m with
  | candles items now => exact provider_handleCandle h
  | subscriptionResponse coin interval =>
    unfold WebSocketFeed.readOnce WebSocketFeed.handleSubscriptionAck
    simp only
    split_ifs
    · exact h.same rfl rfl
    · exact h
  | other => exact h

theorem provider_readerLoop (h : Provider f) (m : Message) : Provider (f.readerLoop m) := by
  have hread := provider_readOnce h m
  unfold WebSocketFeed.readerLoop
  split_ifs
  · exact h
  · rcases hresult : f.readOnce m with ⟨f', _ | exc⟩
    · rw [hresult] at hread
      exact hread
    · rw [hresult] at hread
      exact hread.same rfl rfl

theorem provider_empty (h : Provider f) (hqueue : f'.liveQueue = f.liveQueue) (hbuffer : f'.buffer = []) :
    Provider f' :=
  ⟨hqueue ▸ h.queue, by simp [hbuffer]⟩

theorem provider_readerLost (h : Provider f) (error : String) : Provider (f.readerLost error) := by
  unfold WebSocketFeed.readerLost
  split_ifs
  · exact h.same rfl rfl
  · exact h

theorem provider_heartbeatLost (h : Provider f) (error : String) : Provider (f.heartbeatLost error) := by
  unfold WebSocketFeed.heartbeatLost
  split_ifs
  · exact h.same rfl rfl
  · exact h

end Feed

/-- Properties of the candles that ingesting updates and refreshing the weeks keeps. -/
structure DataRules (inv : MarketDataRuntime → Prop) : Prop where
  same : ∀ {rt rt'}, inv rt → rt'.repository = rt.repository → rt'.ingestLog = rt.ingestLog → inv rt'
  ingest : ∀ {rt raws} t, inv rt → (∀ raw ∈ raws, raw.timeframe ≠ .weekly) → inv (afterIngest rt raws t)
  refresh : ∀ {rt} t, inv rt → (∃ e ∈ rt.ingestLog, e.evaluationTime = t) → inv (afterRefresh rt t)

/-- No series still to be fetched is one of the provider's weeks. -/
def Todo : Phase → Prop
  | .backfilling _ _ _ timeframe rest => timeframe ≠ .weekly ∧ ∀ series ∈ rest, series.2 ≠ .weekly
  | _ => True

structure Guarded (inv : MarketDataRuntime → Prop) (rt : MarketDataRuntime) : Prop where
  data : inv rt
  feed : Provider rt.ws
  todo : Todo rt.phase

section Steps

variable {inv : MarketDataRuntime → Prop} {rt rt' : MarketDataRuntime} {call : Call} {t : Time} {exc : Exc}

theorem Guarded.same (rules : DataRules inv) (h : Guarded inv rt) (hrepository : rt'.repository = rt.repository)
    (hlog : rt'.ingestLog = rt.ingestLog) (hfeed : Provider rt'.ws) (htodo : Todo rt'.phase) :
    Guarded inv rt' :=
  ⟨rules.same h.data hrepository hlog, hfeed, htodo⟩

theorem DataRules.refresh_ingest (rules : DataRules inv) (raws : List RawCandle) (t : Time)
    (h : inv (afterIngest rt raws t)) : inv (afterRefresh (afterIngest rt raws t) t) :=
  rules.refresh t h ⟨_, List.mem_append_right _ List.mem_cons_self, rfl⟩

theorem guarded_fail (rules : DataRules inv) (h : Guarded inv rt) : Guarded inv (rt.fail call exc).1 := by
  have hfeed : Provider rt.ws.discardBuffer := provider_empty h.feed rfl rfl
  unfold MarketDataRuntime.fail
  simp only
  split_ifs
  · exact h.same rules rfl rfl hfeed trivial
  · exact h.same rules rfl rfl hfeed trivial

theorem guarded_handshakeFailed (rules : DataRules inv) (h : Guarded inv rt) :
    Guarded inv (rt.handshakeFailed call exc).1 := by
  unfold MarketDataRuntime.handshakeFailed
  simp only
  split_ifs
  · exact guarded_fail rules h
  · exact guarded_fail rules (h.same rules rfl rfl (h.feed.same rfl rfl) h.todo)

theorem guarded_backfillFailed (rules : DataRules inv) (h : Guarded inv rt) :
    Guarded inv (rt.backfillFailed call exc).1 :=
  guarded_fail rules (h.same rules rfl rfl h.feed h.todo)

theorem guarded_ingestLive (rules : DataRules inv) (h : Guarded inv rt) : Guarded inv (rt.ingestLive t).1 := by
  have hdrained : inv { rt with ws := (rt.ws.drainEvents maxItems).1 } := rules.same h.data rfl rfl
  rw [ingestLive_eq]
  refine ⟨rules.refresh_ingest _ t (rules.ingest t hdrained fun raw hraw => h.feed.queue raw (List.mem_of_mem_take hraw)),
    ⟨fun raw hraw => h.feed.queue raw (List.mem_of_mem_drop hraw), h.feed.buffer⟩, h.todo⟩

theorem guarded_finishReconnect (rules : DataRules inv) (h : Guarded inv rt) :
    Guarded inv (rt.finishReconnect call t).1 := by
  unfold MarketDataRuntime.finishReconnect
  simp only
  split
  · exact h.same rules rfl rfl h.feed trivial
  · split_ifs
    · exact guarded_ingestLive rules (h.same rules rfl rfl h.feed trivial)
    · exact guarded_ingestLive rules (h.same rules rfl rfl h.feed trivial)
    · exact h.same rules rfl rfl h.feed trivial
    · exact h.same rules rfl rfl h.feed trivial

theorem guarded_finishBackfills (rules : DataRules inv) (h : Guarded inv rt) :
    Guarded inv (rt.finishBackfills call t).1 := by
  have hfeed : Provider rt.ws.endBuffer.1 := provider_empty h.feed rfl rfl
  have hbuffered : ∀ raw ∈ rt.ws.endBuffer.2, raw.timeframe ≠ .weekly := fun raw hraw =>
    h.feed.buffer raw ((List.perm_insertionSort _ _).mem_iff.mp hraw)
  have hended : inv { rt with ws := rt.ws.endBuffer.1 } := rules.same h.data rfl rfl
  obtain ⟨result, hresult⟩ := ingest_eq { rt with ws := rt.ws.endBuffer.1 } rt.ws.endBuffer.2 t
  have hflushed : Guarded inv (afterRefresh (afterIngest { rt with ws := rt.ws.endBuffer.1 }
      rt.ws.endBuffer.2 t) t) :=
    ⟨rules.refresh_ingest _ t (rules.ingest t hended hbuffered), hfeed, h.todo⟩
  unfold MarketDataRuntime.finishBackfills
  simp only [hresult, refreshWeeks_eq]
  split
  · exact guarded_fail rules hflushed
  · rename_i rt' hready
    obtain ⟨ready, rfl, _⟩ := bundles_of_refresh hready
    split_ifs
    · exact hflushed.same rules rfl rfl hflushed.feed trivial
    · exact guarded_finishReconnect rules (hflushed.same rules rfl rfl hflushed.feed hflushed.todo)

theorem guarded_nextBackfill (rules : DataRules inv) (h : Guarded inv rt) {todo : List (Symbol × Timeframe)}
    (htodo : ∀ series ∈ todo, series.2 ≠ .weekly) : Guarded inv (rt.nextBackfill call t todo).1 := by
  induction todo with
  | nil => exact guarded_finishBackfills rules h
  | cons series rest ih =>
    have hrest : ∀ series ∈ rest, series.2 ≠ .weekly := fun s hs => htodo s (List.mem_cons_of_mem _ hs)
    unfold MarketDataRuntime.nextBackfill
    split_ifs
    · exact ih hrest
    · exact h.same rules rfl rfl h.feed ⟨htodo series List.mem_cons_self, hrest⟩

theorem guarded_startBackfills (rules : DataRules inv) (h : Guarded inv rt) :
    Guarded inv (rt.startBackfills call t).1 := by
  unfold MarketDataRuntime.startBackfills
  split_ifs
  · exact guarded_fail rules h
  · refine guarded_nextBackfill rules h fun series hseries => ?_
    simpa using (List.mem_filter.mp hseries).2

theorem mem_firstOfEach {seen : List (ℤ × ℤ)} {raws : List RawCandle} {raw : RawCandle}
    (h : raw ∈ firstOfEach seen raws) : raw ∈ raws := by
  induction raws generalizing seen with
  | nil => cases h
  | cons first raws ih =>
    unfold firstOfEach at h
    simp only at h
    split_ifs at h
    · exact List.mem_cons_of_mem _ (ih h)
    · rcases List.mem_cons.mp h with rfl | h
      · exact List.mem_cons_self
      · exact List.mem_cons_of_mem _ (ih h)

theorem mem_fetchCandles {symbol : Symbol} {timeframe : Timeframe} {start stop : Time} {items : List CandlePayload}
    {raws : List RawCandle} (h : fetchCandles symbol timeframe start stop t items = .ok raws) {raw : RawCandle}
    (hraw : raw ∈ raws) : ∃ item ∈ items,
      parseCandle item (coinForSymbol symbol) (intervalForTimeframe timeframe) t = .ok raw := by
  unfold fetchCandles at h
  split_ifs at h
  cases hparsed : items.mapM (parseSnapshotItem symbol timeframe stop t) with
  | error exc =>
    rw [hparsed] at h
    cases h
  | ok parsed =>
    rw [hparsed] at h
    cases h
    have hmem := mem_firstOfEach ((List.perm_insertionSort _ _).mem_iff.mp hraw)
    obtain ⟨item, hitem, hparse⟩ := mapM_ok_mem hparsed (List.mem_filter.mp hmem).1
    refine ⟨item, hitem, ?_⟩
    unfold parseSnapshotItem at hparse
    cases hcandle : parseCandle item (coinForSymbol symbol) (intervalForTimeframe timeframe) t with
    | error exc =>
      rw [hcandle] at hparse
      cases hparse
    | ok candle =>
      rw [hcandle] at hparse
      simp only [bind, Except.bind] at hparse
      split_ifs at hparse
      cases hparse
      rfl

theorem guarded_backfillSymbol (rules : DataRules inv) (h : Guarded inv rt) {symbol : Symbol}
    {timeframe : Timeframe} {rest : List (Symbol × Timeframe)} (htimeframe : timeframe ≠ .weekly)
    (hrest : ∀ series ∈ rest, series.2 ≠ .weekly) (fetchedMeta : Except Exc Unit)
    (pages : Except Exc (List CandlePayload)) :
    Guarded inv (rt.backfillSymbol call t symbol timeframe rest fetchedMeta pages).1 := by
  unfold MarketDataRuntime.backfillSymbol
  split
  · exact guarded_backfillFailed rules h
  · have hmeta : Guarded inv { rt with metaOk := true } := h.same rules rfl rfl h.feed h.todo
    simp only
    split
    · exact guarded_backfillFailed rules hmeta
    · split
      · exact guarded_backfillFailed rules hmeta
      · rename_i raws hfetched
        have hraws : ∀ raw ∈ raws, raw.timeframe ≠ .weekly := by
          intro raw hraw
          obtain ⟨item, _, hparse⟩ := mem_fetchCandles hfetched hraw
          rw [resolveInterval_timeframe (parseCandle_ok hparse).2]
          exact htimeframe
        have hreceived : Guarded inv { rt with
            metaOk := true
            ws := { rt.ws with received := rt.ws.received ++ raws } } :=
          h.same rules rfl rfl (h.feed.same rfl rfl) h.todo
        obtain ⟨result, hresult⟩ := ingest_eq { rt with
            metaOk := true
            ws := { rt.ws with received := rt.ws.received ++ raws } } raws t
        have hingested : Guarded inv (afterIngest { rt with
            metaOk := true
            ws := { rt.ws with received := rt.ws.received ++ raws } } raws t) :=
          ⟨rules.ingest t hreceived.data hraws, hreceived.feed, h.todo⟩
        simp only [hresult]
        split
        · exact guarded_backfillFailed rules hingested
        · refine guarded_nextBackfill rules ?_ hrest
          exact hingested.same rules rfl rfl hingested.feed h.todo

theorem guarded_awaitAcks (rules : DataRules inv) (h : Guarded inv rt) : Guarded inv (rt.awaitAcks call t).1 := by
  unfold MarketDataRuntime.awaitAcks
  split_ifs
  · exact h.same rules rfl rfl h.feed trivial
  · exact guarded_startBackfills rules (h.same rules rfl rfl (h.feed.same rfl rfl) h.todo)

theorem guarded_message (rules : DataRules inv) (h : Guarded inv rt) (m : Message) :
    Guarded inv (rt.message m).1 := by
  have hread := provider_readOnce h.feed m
  have hloop := provider_readerLoop h.feed m
  have htodo := h.todo
  unfold MarketDataRuntime.message
  cases hphase : rt.phase with
  | connecting call t => exact h
  | handshaking call t =>
    rcases hresult : rt.ws.readOnce m with ⟨ws, _ | exc⟩
    · rw [hresult] at hread
      simp only
      refine guarded_awaitAcks rules ?_
      exact h.same rules rfl rfl hread trivial
    · rw [hresult] at hread
      simp only
      refine guarded_handshakeFailed rules ?_
      exact h.same rules rfl rfl hread trivial
  | idle => exact h.same rules rfl rfl hloop trivial
  | backingOff call t => exact h.same rules rfl rfl hloop trivial
  | backfilling call t symbol timeframe rest =>
    rw [hphase] at htodo
    exact h.same rules rfl rfl hloop htodo

theorem guarded_start (rules : DataRules inv) (h : Guarded inv rt) (fetchedMeta : Except Exc Unit) :
    Guarded inv (rt.start t fetchedMeta).1 := by
  have hfeed : Provider rt.ws.beginBuffer := provider_empty h.feed rfl rfl
  unfold MarketDataRuntime.start
  split_ifs
  · exact h
  · cases fetchedMeta with
    | error exc => exact guarded_fail rules (h.same rules rfl rfl hfeed h.todo)
    | ok u => exact h.same rules rfl rfl (hfeed.same rfl rfl) trivial

theorem guarded_beginReconnect (rules : DataRules inv) (h : Guarded inv rt) :
    Guarded inv (rt.beginReconnect call t).1 :=
  h.same rules rfl rfl (provider_empty h.feed rfl rfl) trivial

theorem guarded_timeout (rules : DataRules inv) (h : Guarded inv rt) : Guarded inv rt.timeout.1 := by
  have hlost : Guarded inv { rt with ws := rt.ws.lose "WebSocket reconnect cancelled" } :=
    h.same rules rfl rfl (h.feed.same rfl rfl) h.todo
  unfold MarketDataRuntime.timeout
  split
  · split_ifs
    · exact h
    · exact guarded_fail rules h
  · split_ifs
    · exact h
    · exact guarded_fail rules h
  · split_ifs
    · exact h
    · exact guarded_fail rules hlost
  · split_ifs
    · exact h
    · exact guarded_fail rules hlost
  · exact h

theorem guarded_processLive (rules : DataRules inv) (h : Guarded inv rt) : Guarded inv (rt.processLive t).1 := by
  unfold MarketDataRuntime.processLive
  split_ifs
  · exact guarded_ingestLive rules h
  · exact guarded_beginReconnect rules h

theorem guarded_reconnect (rules : DataRules inv) (h : Guarded inv rt) : Guarded inv (rt.reconnect t).1 := by
  unfold MarketDataRuntime.reconnect
  split_ifs
  · exact h
  · exact guarded_beginReconnect rules h

theorem guarded_step (rules : DataRules inv) (h : Guarded inv rt) (action : Action) :
    Guarded inv (rt.step action).1 := by
  cases action with
  | message m => exact guarded_message rules h m
  | connectionLost error => exact h.same rules rfl rfl (provider_readerLost h.feed error) h.todo
  | heartbeatLost error => exact h.same rules rfl rfl (provider_heartbeatLost h.feed error) h.todo
  | start t fetchedMeta =>
    by_cases hidle : rt.phase = .idle
    · simp only [MarketDataRuntime.step, hidle, ↓reduceIte]
      exact guarded_start rules h fetchedMeta
    · simp only [MarketDataRuntime.step, hidle, ↓reduceIte]
      exact h
  | processLive t =>
    by_cases hidle : rt.phase = .idle
    · simp only [MarketDataRuntime.step, hidle, ↓reduceIte]
      exact guarded_processLive rules h
    · simp only [MarketDataRuntime.step, hidle, ↓reduceIte]
      exact h
  | reconnect t =>
    by_cases hidle : rt.phase = .idle
    · simp only [MarketDataRuntime.step, hidle, ↓reduceIte]
      exact guarded_reconnect rules h
    · simp only [MarketDataRuntime.step, hidle, ↓reduceIte]
      exact h
  | awake =>
    unfold MarketDataRuntime.step
    simp only
    split
    · exact h.same rules rfl rfl (h.feed.same rfl rfl) trivial
    · exact h
  | connect failure =>
    unfold MarketDataRuntime.step
    simp only
    split
    · exact guarded_handshakeFailed rules h
    · exact guarded_awaitAcks rules (h.same rules rfl rfl (h.feed.same rfl rfl) h.todo)
    · exact h
  | handshakeFailed exc =>
    unfold MarketDataRuntime.step
    simp only
    split
    · exact guarded_handshakeFailed rules h
    · exact h
  | fetched fetchedMeta pages =>
    unfold MarketDataRuntime.step
    simp only
    split
    · rename_i hphase
      have htodo := h.todo
      rw [hphase] at htodo
      exact guarded_backfillSymbol rules h htodo.1 htodo.2 fetchedMeta pages
    · exact h
  | timeout => exact guarded_timeout rules h

theorem guarded_run (rules : DataRules inv) (h : Guarded inv rt) (actions : List Action) :
    Guarded inv (rt.run actions) := by
  induction actions generalizing rt with
  | nil => exact h
  | cons action actions ih => exact ih (guarded_step rules h action)

end Steps

end TradingBot.Market.RuntimeRules
