import TradingBot.Market.DerivedWeeks
import TradingBot.Market.Recoverability

namespace TradingBot.Market.LatestUpdate

open Market.Models Market.Repository Market.Timeframes Market.Quality Market.Provider Market.Feed Market.Ingest
open Market.BundleFacts Market.IngestFacts Market.Runtime Market.RuntimeFacts Market.RuntimeRules Market.Reports
open Market.DerivedWeeks Market.Recoverability MarketDataRuntime Exceptions Library.Outcome

section Updates

variable {key : CandleKey} {l m : List RawCandle}

def lastOf (key : CandleKey) (l : List RawCandle) : Option RawCandle :=
  (l.filter fun raw => Admissible raw ∧ keyOf raw = key).getLast?

def carried (l : List RawCandle) : List CandleKey := (l.filter fun raw => Admissible raw).map keyOf

def Apart (l m : List RawCandle) : Prop := ∀ key ∈ carried l, key ∉ carried m

instance (l m : List RawCandle) : Decidable (Apart l m) := by
  unfold Apart
  infer_instance

def Aligned (l : List RawCandle) : Prop :=
  l.Pairwise fun a b => Admissible a → Admissible b → keyOf a = keyOf b → a.openTime ≤ b.openTime

instance : DecidablePred Aligned := fun l => by
  unfold Aligned
  infer_instance

theorem lastOf_append (key : CandleKey) (l m : List RawCandle) :
    lastOf key (l ++ m) = (lastOf key m).or (lastOf key l) := by
  unfold lastOf
  rw [List.filter_append, List.getLast?_append]

theorem lastOf_eq_none (h : key ∉ carried l) : lastOf key l = none := by
  unfold lastOf
  rw [List.getLast?_eq_none_iff, List.filter_eq_nil_iff]
  intro raw hraw hcond
  obtain ⟨hadmissible, hkey⟩ := of_decide_eq_true hcond
  refine h (List.mem_map.mpr ⟨raw, List.mem_filter.mpr ⟨hraw, ?_⟩, hkey⟩)
  exact decide_eq_true hadmissible

@[simp] theorem lastOf_nil (key : CandleKey) : lastOf key [] = none := rfl

theorem lastOf_or_comm (h : Apart l m) (key : CandleKey) :
    (lastOf key l).or (lastOf key m) = (lastOf key m).or (lastOf key l) := by
  by_cases hl : key ∈ carried l
  · rw [lastOf_eq_none (h key hl)]
    simp
  · rw [lastOf_eq_none hl]
    simp

theorem lastOf_sorted (h : Aligned l) (key : CandleKey) :
    lastOf key (l.insertionSort fun a b => a.openTime ≤ b.openTime) = lastOf key l := by
  have : Std.Total fun a b : RawCandle => a.openTime ≤ b.openTime :=
    ⟨fun a b => le_total a.openTime b.openTime⟩
  have : IsTrans RawCandle fun a b => a.openTime ≤ b.openTime := ⟨fun _ _ _ => le_trans⟩
  unfold lastOf
  have hordered : (l.filter fun raw => Admissible raw ∧ keyOf raw = key).Pairwise
      fun a b => a.openTime ≤ b.openTime := by
    refine (h.filter _).imp_of_mem fun {a b} ha hb hab => ?_
    obtain ⟨hadmissible, hkey⟩ := of_decide_eq_true (List.mem_filter.mp ha).2
    obtain ⟨hadmissible', hkey'⟩ := of_decide_eq_true (List.mem_filter.mp hb).2
    exact hab hadmissible hadmissible' (hkey.trans hkey'.symm)
  have hsub := (List.sublist_insertionSort hordered List.filter_sublist).filter
    fun raw => Admissible raw ∧ keyOf raw = key
  simp only [List.filter_filter, Bool.and_self] at hsub
  have hlength := ((List.perm_insertionSort (fun a b : RawCandle => a.openTime ≤ b.openTime) l).filter
    fun raw => Admissible raw ∧ keyOf raw = key).length_eq
  congr 1
  exact (hsub.eq_of_length hlength.symm).symm

end Updates

section Stored

variable {r : CandleRepository} {rt : MarketDataRuntime} {key : CandleKey} {t : Time} {raw : RawCandle}
  {still : CandleKey → Prop} {done raws : List RawCandle}

def shown (raw : RawCandle) : Candle := flagged (candleOf raw 0)

structure Values (still : CandleKey → Prop) (r : CandleRepository) (done : List RawCandle) : Prop where
  closes : ∀ c ∈ r.store, c.closeTime = canonicalClose c.timeframe c.openTime
  values : ∀ key, still key → (r.get? key).map flagged = (lastOf key done).map shown

theorem closes_iff : (∀ c ∈ r.store, c.closeTime = canonicalClose c.timeframe c.openTime) ↔
    ∀ key c, r.get? key = some c → c.closeTime = canonicalClose key.timeframe key.openTime := by
  constructor
  · intro h key c hget
    rw [← key_of_get? hget]
    exact h c (mem_of_get? hget)
  · intro h c hc
    exact h c.key c (get?_of_mem hc)

theorem liveValue_closes (h : ∀ c ∈ r.store, c.closeTime = canonicalClose c.timeframe c.openTime) :
    (liveValue (r.get? (keyOf raw)) (candleOf raw t) t).closeTime = (candleOf raw t).closeTime := by
  cases hget : r.get? (keyOf raw) with
  | none => rfl
  | some existing =>
    rcases liveValue_eq_or existing (candleOf raw t) t with hkept | ⟨hreplaced, _⟩
    · rw [hkept]
      exact closes_iff.mp h _ _ hget
    · rw [hreplaced]

theorem liveValue_open (h : ∀ c ∈ r.store, c.closeTime = canonicalClose c.timeframe c.openTime)
    (hopen : t < canonicalClose raw.timeframe (canonicalOpen raw.timeframe raw.openTime)) :
    liveValue (r.get? (keyOf raw)) (candleOf raw t) t = candleOf raw t := by
  cases hget : r.get? (keyOf raw) with
  | none => rfl
  | some existing =>
    have hlater : isCandleClosed existing.closeTime t = false := by
      rw [closes_iff.mp h _ _ hget]
      exact decide_eq_false (not_le.mpr hopen)
    unfold liveValue
    simp only [hlater]
    split_ifs with hequal hfinal hnever
    · exact hequal
    · rfl
    · rfl
    · exact absurd rfl hnever

theorem lastOf_concat (key : CandleKey) (l : List RawCandle) (raw : RawCandle) : lastOf key (l ++ [raw]) =
    if Admissible raw ∧ keyOf raw = key then some raw else lastOf key l := by
  rw [lastOf_append]
  unfold lastOf
  by_cases h : Admissible raw ∧ keyOf raw = key
  · simp [h]
  · rw [if_neg h]
    simp [h]

theorem values_ingested (h : Values still r done)
    (hstill : ∀ key, still key → t < canonicalClose key.timeframe key.openTime) :
    Values still (ingested t r raw) (done ++ [raw]) := by
  by_cases hadmissible : Admissible raw
  · have hvalue : ∀ key, (ingested t r raw).get? key = if key = keyOf raw then
        some (liveValue (r.get? (keyOf raw)) (candleOf raw t) t) else r.get? key := by
      intro key
      unfold ingested
      rw [if_pos hadmissible]
      exact get?_upsertLive _ _ _ _
    refine ⟨closes_iff.mpr fun key c hget => ?_, fun key hkey => ?_⟩
    · rw [hvalue] at hget
      split_ifs at hget with heq
      · cases hget
        rw [liveValue_closes h.closes, heq]
        rfl
      · exact closes_iff.mp h.closes key c hget
    · rw [hvalue, lastOf_concat]
      by_cases heq : keyOf raw = key
      · subst heq
        rw [if_pos rfl, if_pos ⟨hadmissible, rfl⟩, liveValue_open h.closes (hstill _ hkey)]
        rfl
      · rw [if_neg (Ne.symm heq), if_neg fun hcond => heq hcond.2]
        exact h.values key hkey
  · unfold ingested
    rw [if_neg hadmissible]
    refine ⟨h.closes, fun key hkey => ?_⟩
    rw [lastOf_concat, if_neg fun hcond => hadmissible hcond.1]
    exact h.values key hkey

theorem values_ingestedAll (h : Values still r done)
    (hstill : ∀ key, still key → t < canonicalClose key.timeframe key.openTime) :
    Values still (raws.foldl (ingested t) r) (done ++ raws) := by
  induction raws generalizing r done with
  | nil => simpa using h
  | cons raw raws ih =>
    have hfirst : Values still (ingested t r raw) (done ++ [raw]) := values_ingested h hstill
    have hrest := ih hfirst
    rw [List.append_assoc] at hrest
    exact hrest

theorem values_upsertMany {weeks : List Candle} (h : Values still r done)
    (hweeks : ∀ week ∈ weeks, week.closeTime = canonicalClose week.timeframe week.openTime ∧ ¬ still week.key) :
    Values still (upsertMany r weeks) done := by
  induction weeks generalizing r with
  | nil => exact h
  | cons week weeks ih =>
    obtain ⟨hclose, hpast⟩ := hweeks week List.mem_cons_self
    refine ih ⟨closes_iff.mpr fun key c hget => ?_, fun key hkey => ?_⟩ fun w hw =>
      hweeks w (List.mem_cons_of_mem _ hw)
    · rw [get?_upsert] at hget
      split_ifs at hget with heq
      · subst heq
        cases hstored : r.get? week.key with
        | none =>
          rw [hstored] at hget
          cases hget
          exact hclose
        | some existing =>
          rw [hstored] at hget
          cases hget
          exact closes_iff.mp h.closes _ _ hstored
      · exact closes_iff.mp h.closes key c hget
    · rw [get?_upsert, if_neg fun heq : key = week.key => hpast (heq ▸ hkey)]
      exact h.values key hkey

theorem values_refreshed (h : Values still r done)
    (hstill : ∀ key, still key → t < canonicalClose key.timeframe key.openTime) (symbols : List Symbol) :
    Values still (refreshed symbols t r) done := by
  induction symbols generalizing r with
  | nil => exact h
  | cons symbol symbols ih =>
    refine ih (values_upsertMany h fun week hweek => ?_)
    obtain ⟨weekStart, _, hweek⟩ := List.mem_filterMap.mp hweek
    obtain ⟨hkey, hclose, hpast⟩ := weekOf_eq_some hweek
    have hopen : week.openTime = weekStart := congrArg CandleKey.openTime hkey
    have htimeframe : week.timeframe = .weekly := congrArg CandleKey.timeframe hkey
    have hcanonical : week.closeTime = canonicalClose week.timeframe week.openTime := by
      rw [htimeframe, hopen, hclose]
      rfl
    refine ⟨hcanonical, fun hopen' => ?_⟩
    have hlater : t < canonicalClose week.timeframe week.openTime := hstill _ hopen'
    rw [← hcanonical] at hlater
    exact absurd hpast (not_le.mpr hlater)

def ingestedRaws (rt : MarketDataRuntime) : List RawCandle := rt.ingestLog.flatMap (·.raws)

def StillOpen (rt : MarketDataRuntime) (key : CandleKey) : Prop :=
  ∀ e ∈ rt.ingestLog, e.evaluationTime < canonicalClose key.timeframe key.openTime

instance (rt : MarketDataRuntime) (key : CandleKey) : Decidable (StillOpen rt key) := by
  unfold StillOpen
  infer_instance

theorem storedRules : DataRules fun rt => Values (StillOpen rt) rt.repository (ingestedRaws rt) where
  same := by
    intro rt rt' h hrepository hlog
    unfold StillOpen ingestedRaws
    rw [hrepository, hlog]
    exact h
  ingest := by
    intro rt raws t h _
    have hstill : ∀ key, StillOpen (afterIngest rt raws t) key → StillOpen rt key := fun key hkey e he =>
      hkey e (List.mem_append_left _ he)
    have hbefore : Values (StillOpen (afterIngest rt raws t)) rt.repository (ingestedRaws rt) :=
      ⟨h.closes, fun key hkey => h.values key (hstill key hkey)⟩
    have hraws : ingestedRaws (afterIngest rt raws t) = ingestedRaws rt ++ raws := by
      simp [ingestedRaws, afterIngest]
    rw [hraws]
    exact values_ingestedAll hbefore fun key hkey => hkey _ (List.mem_append_right _ List.mem_cons_self)
  refresh := by
    rintro rt t h ⟨e, he, rfl⟩
    exact values_refreshed h (fun key hkey => hkey e he) _

end Stored

section Order

variable {rt : MarketDataRuntime} {call : Call} {t : Time} {exc : Exc}

/-- Every candle's last update is the last of those that were ingested, that wait in the queue, and that
wait in the buffer, in this order. -/
structure Held (rt : MarketDataRuntime) : Prop where
  latest : ∀ key, lastOf key rt.ws.received =
    lastOf key (ingestedRaws rt ++ rt.ws.liveQueue ++ rt.ws.buffer)
  direct : rt.ws.buffering = false → rt.ws.buffer = []

/-- What a stretch of a call leaves behind: a poll that returns has ingested whatever was waiting. -/
structure Settles (call : Call) (result : MarketDataRuntime × Reply) : Prop where
  held : Held result.1
  idle : result.1.phase = .idle → result.1.ws.buffering = false
  drained : call = .processLive → ∀ n, result.2 = .returned n →
    result.1.phase = .idle ∧ result.1.ws.liveQueue = []

/-- When the buffer is flushed, its updates come before those of the queue. -/
structure Flushable (f : WebSocketFeed) : Prop where
  apart : Apart f.liveQueue f.buffer
  aligned : Aligned f.buffer

theorem Settles.pending (h : Held rt) (hidle : rt.phase = .idle → rt.ws.buffering = false) :
    Settles call (rt, .pending) :=
  ⟨h, hidle, fun _ _ hn => (by cases hn)⟩

theorem settles_fail (h : Held rt) (hkept : carried rt.ws.buffer = []) : Settles call (rt.fail call exc) := by
  have hdropped : ∀ rt' : MarketDataRuntime, rt'.ws = rt.ws.discardBuffer → rt'.ingestLog = rt.ingestLog →
      Held rt' := by
    intro rt' hws hlog
    refine ⟨fun key => ?_, fun _ => ?_⟩
    · unfold ingestedRaws
      rw [hws, hlog]
      have hlatest := h.latest key
      rw [lastOf_append, lastOf_eq_none (l := rt.ws.buffer) (by rw [hkept]; exact List.not_mem_nil)] at hlatest
      simpa [WebSocketFeed.discardBuffer, ingestedRaws] using hlatest
    · rw [hws]
      rfl
  unfold MarketDataRuntime.fail
  simp only
  split_ifs
  · exact ⟨hdropped _ rfl rfl, fun _ => rfl, fun _ _ hn => (by cases hn)⟩
  · exact ⟨hdropped _ rfl rfl, fun _ => rfl, fun _ _ hn => (by cases hn)⟩

theorem Held.same {rt' : MarketDataRuntime} (h : Held rt) (hlog : rt'.ingestLog = rt.ingestLog)
    (hreceived : rt'.ws.received = rt.ws.received) (hqueue : rt'.ws.liveQueue = rt.ws.liveQueue)
    (hbuffer : rt'.ws.buffer = rt.ws.buffer) (hbuffering : rt'.ws.buffering = rt.ws.buffering) : Held rt' := by
  refine ⟨fun key => ?_, fun hdirect => ?_⟩
  · unfold ingestedRaws
    rw [hlog, hreceived, hqueue, hbuffer]
    exact h.latest key
  · rw [hbuffer]
    exact h.direct (hbuffering ▸ hdirect)

theorem settles_handshakeFailed (h : Held rt) (hkept : carried rt.ws.buffer = []) :
    Settles call (rt.handshakeFailed call exc) := by
  unfold MarketDataRuntime.handshakeFailed
  simp only
  split_ifs
  · exact settles_fail h hkept
  · exact settles_fail (h.same rfl rfl rfl rfl rfl) hkept

theorem settles_backfillFailed (h : Held rt) (hkept : carried rt.ws.buffer = []) :
    Settles call (rt.backfillFailed call exc) :=
  settles_fail (h.same rfl rfl rfl rfl rfl) hkept

theorem ingestedRaws_ingest (rt : MarketDataRuntime) (raws : List RawCandle) (t : Time) :
    ingestedRaws (afterIngest rt raws t) = ingestedRaws rt ++ raws := by
  simp [ingestedRaws, afterIngest]

theorem settles_ingestLive (h : Held rt) (hidle : rt.phase = .idle) (hdirect : rt.ws.buffering = false)
    (hlength : call = .processLive → rt.ws.liveQueue.length ≤ maxItems) :
    Settles call (rt.ingestLive t) := by
  obtain ⟨n, hlive⟩ := ingestLive_returns rt t
  rw [hlive]
  refine ⟨⟨fun key => ?_, h.direct⟩, fun _ => hdirect, fun hcall _ _ => ⟨hidle, ?_⟩⟩
  · have hraws : ingestedRaws (afterRefresh (afterIngest { rt with ws := (rt.ws.drainEvents maxItems).1 }
        (rt.ws.liveQueue.take maxItems) t) t) = ingestedRaws rt ++ rt.ws.liveQueue.take maxItems :=
      ingestedRaws_ingest { rt with ws := (rt.ws.drainEvents maxItems).1 } _ t
    have htaken : ∀ l : List RawCandle, l ++ rt.ws.liveQueue.take maxItems ++ rt.ws.liveQueue.drop maxItems =
        l ++ rt.ws.liveQueue := by
      intro l
      rw [List.append_assoc, List.take_append_drop]
    rw [hraws]
    simp only [afterRefresh, afterIngest, WebSocketFeed.drainEvents]
    rw [htaken]
    exact h.latest key
  · exact List.drop_eq_nil_of_le (hlength hcall)

theorem settles_finishReconnect (h : Held rt) (hregular : AllRegular rt.repository)
    (hdirect : rt.ws.buffering = false) (hlength : call = .processLive → rt.ws.liveQueue.length ≤ maxItems) :
    Settles call (rt.finishReconnect call t) := by
  have hready : Returns (MarketDataRuntime.readiness { rt with lastError := none, phase := .idle } t) :=
    readiness_returns hregular
  obtain ⟨recovered, hrecovered⟩ := hready
  unfold MarketDataRuntime.finishReconnect
  simp only [hrecovered]
  split_ifs with hlive
  · exact settles_ingestLive (h.same rfl rfl rfl rfl rfl) rfl hdirect hlength
  · exact settles_ingestLive (h.same rfl rfl rfl rfl rfl) rfl hdirect hlength
  · exact ⟨h.same rfl rfl rfl rfl rfl, fun _ => hdirect, fun hcall => absurd hcall hlive⟩
  · exact ⟨h.same rfl rfl rfl rfl rfl, fun _ => hdirect, fun hcall => absurd hcall hlive⟩

theorem held_flushed (h : Held rt) (hflush : Flushable rt.ws) :
    Held (afterRefresh (afterIngest { rt with ws := rt.ws.endBuffer.1 } rt.ws.endBuffer.2 t) t) := by
  refine ⟨fun key => ?_, fun _ => rfl⟩
  have hraws : ingestedRaws (afterRefresh (afterIngest { rt with ws := rt.ws.endBuffer.1 } rt.ws.endBuffer.2 t) t) =
      ingestedRaws rt ++ rt.ws.endBuffer.2 := ingestedRaws_ingest { rt with ws := rt.ws.endBuffer.1 } _ t
  have hsorted : lastOf key rt.ws.endBuffer.2 = lastOf key rt.ws.buffer := lastOf_sorted hflush.aligned key
  rw [hraws]
  simp only [afterRefresh, afterIngest, WebSocketFeed.endBuffer] at hsorted ⊢
  rw [h.latest key]
  simp only [lastOf_append, hsorted, lastOf_nil, Option.none_or]
  rw [← Option.or_assoc, ← lastOf_or_comm hflush.apart key, Option.or_assoc]

theorem settles_finishBackfills (h : Held rt) (hregular : AllRegular rt.repository) (hflush : Flushable rt.ws)
    (hlength : call = .processLive → rt.ws.liveQueue.length ≤ maxItems) :
    Settles call (rt.finishBackfills call t) := by
  obtain ⟨_, ready, rfl, hflushed, _, heq⟩ := finishBackfills_eq hregular call t
  rw [heq]
  have hheld := held_flushed (t := t) h hflush
  split_ifs with hcall
  · exact ⟨hheld.same rfl rfl rfl rfl rfl, fun _ => rfl, fun hlive => (by rw [hcall] at hlive; cases hlive)⟩
  · exact settles_finishReconnect (hheld.same rfl rfl rfl rfl rfl) hflushed rfl hlength

theorem settles_nextBackfill (h : Held rt) (hregular : AllRegular rt.repository) (hflush : Flushable rt.ws)
    (hlength : call = .processLive → rt.ws.liveQueue.length ≤ maxItems) (todo : List (Symbol × Timeframe)) :
    Settles call (rt.nextBackfill call t todo) := by
  induction todo with
  | nil => exact settles_finishBackfills h hregular hflush hlength
  | cons series rest ih =>
    unfold MarketDataRuntime.nextBackfill
    split_ifs
    · exact ih
    · exact Settles.pending (h.same rfl rfl rfl rfl rfl) fun hidle => by cases hidle

theorem settles_awaitAcks (h : Held rt) (hregular : AllRegular rt.repository) (hflush : Flushable rt.ws)
    (hlength : call = .processLive → rt.ws.liveQueue.length ≤ maxItems) :
    Settles call (rt.awaitAcks call t) := by
  unfold MarketDataRuntime.awaitAcks
  split_ifs with hacked
  · exact Settles.pending (h.same rfl rfl rfl rfl rfl) fun hidle => by cases hidle
  · have hready : { rt with ws := rt.ws.connectionUp }.transportReady = true := by
      have hexpected : rt.ws.connectionUp.subscriptionsExpected ≤ rt.ws.connectionUp.subscriptionsAcknowledged :=
        not_lt.mp hacked
      unfold transportReady
      simp only [hexpected]
      rfl
    have hup : Held { rt with ws := rt.ws.connectionUp } := h.same rfl rfl rfl rfl rfl
    unfold MarketDataRuntime.startBackfills
    rw [if_neg (by simp [hready])]
    exact settles_nextBackfill hup hregular ⟨hflush.apart, hflush.aligned⟩ hlength _

theorem held_fetched {raws : List RawCandle} (h : Held rt)
    (hapart : Apart raws (rt.ws.liveQueue ++ rt.ws.buffer)) :
    Held (afterIngest { rt with
      metaOk := true
      ws := { rt.ws with received := rt.ws.received ++ raws } } raws t) := by
  refine ⟨fun key => ?_, h.direct⟩
  have hcomm := lastOf_or_comm hapart key
  have hraws : ingestedRaws (afterIngest { rt with
      metaOk := true
      ws := { rt.ws with received := rt.ws.received ++ raws } } raws t) = ingestedRaws rt ++ raws :=
    ingestedRaws_ingest _ raws t
  rw [hraws]
  simp only [afterIngest]
  rw [lastOf_append, h.latest key, List.append_assoc, lastOf_append, ← Option.or_assoc, hcomm, Option.or_assoc,
    ← lastOf_append, ← lastOf_append, ← List.append_assoc]

theorem settles_backfillSymbol (h : Held rt) (hregular : AllRegular rt.repository) (hflush : Flushable rt.ws)
    (hlength : call = .processLive → rt.ws.liveQueue.length ≤ maxItems) (symbol : Symbol)
    (timeframe : Timeframe) (rest : List (Symbol × Timeframe)) {fetchedMeta : Except Exc Unit}
    {pages : Except Exc (List CandlePayload)}
    (hapart : ∀ items raws, pages = .ok items →
      fetchCandles symbol timeframe (rt.backfillStart symbol timeframe t) t t items = .ok raws →
      Apart raws (rt.ws.liveQueue ++ rt.ws.buffer))
    (hkept : ¬ GoodAnswers rt t symbol timeframe fetchedMeta pages → carried rt.ws.buffer = []) :
    Settles call (rt.backfillSymbol call t symbol timeframe rest fetchedMeta pages) := by
  unfold MarketDataRuntime.backfillSymbol
  cases fetchedMeta with
  | error exc =>
    refine settles_backfillFailed h (hkept fun hgood => ?_)
    cases pages with
    | error exc => exact hgood
    | ok items => cases hgood.1
  | ok u =>
    have hmeta : Held { rt with metaOk := true } := h.same rfl rfl rfl rfl rfl
    cases pages with
    | error exc => exact settles_backfillFailed hmeta (hkept fun hgood => hgood)
    | ok items =>
      have hstart : { rt with metaOk := true }.backfillStart symbol timeframe t =
          rt.backfillStart symbol timeframe t := rfl
      simp only [hstart]
      cases hfetched : fetchCandles symbol timeframe (rt.backfillStart symbol timeframe t) t t items with
      | error exc =>
        refine settles_backfillFailed hmeta (hkept fun hgood => ?_)
        have hread := hgood.2
        rw [hfetched] at hread
        cases hread
      | ok raws =>
        have hraws := hapart items raws rfl hfetched
        obtain ⟨result, hresult⟩ := ingest_eq { rt with
          metaOk := true
          ws := { rt.ws with received := rt.ws.received ++ raws } } raws t
        have hingested : AllRegular (afterIngest { rt with
            metaOk := true
            ws := { rt.ws with received := rt.ws.received ++ raws } } raws t).repository :=
          allRegular_ingestedAll hregular t raws
        have hreported : Returns (seriesReport _ t symbol timeframe) := seriesReport_returns hingested
        obtain ⟨report, hreport⟩ := hreported
        simp only [hresult, hreport]
        have hheld := held_fetched (t := t) h hraws
        have hsuccess : Held ((afterIngest { rt with
            metaOk := true
            ws := { rt.ws with received := rt.ws.received ++ raws } } raws t).recordBackfillSuccess t) :=
          hheld.same rfl rfl rfl rfl rfl
        exact settles_nextBackfill hsuccess hingested ⟨hflush.apart, hflush.aligned⟩ hlength rest

end Order

section Reading

variable {f f' : WebSocketFeed} {rt : MarketDataRuntime}

/-- What reading a message adds goes to the place that the feed is set to. -/
structure Adds (f f' : WebSocketFeed) : Prop where
  buffering : f'.buffering = f.buffering
  added : ∃ raws, f'.received = f.received ++ raws ∧
    (f.buffering = false → f'.liveQueue = f.liveQueue ++ raws ∧ f'.buffer = f.buffer) ∧
    (f.buffering = true → f'.liveQueue = f.liveQueue ∧ f'.buffer = f.buffer ++ raws)

theorem Adds.nothing (hbuffering : f'.buffering = f.buffering) (hreceived : f'.received = f.received)
    (hqueue : f'.liveQueue = f.liveQueue) (hbuffer : f'.buffer = f.buffer) : Adds f f' := by
  refine ⟨hbuffering, [], by simpa using hreceived, fun _ => ⟨by simpa using hqueue, hbuffer⟩, fun _ => ⟨hqueue, ?_⟩⟩
  simpa using hbuffer

theorem Adds.trans {f'' : WebSocketFeed} (h : Adds f f') (h' : Adds f' f'') : Adds f f'' := by
  obtain ⟨raws, hreceived, hdirect, hbuffered⟩ := h.added
  obtain ⟨raws', hreceived', hdirect', hbuffered'⟩ := h'.added
  refine ⟨h'.buffering.trans h.buffering, raws ++ raws', by rw [hreceived', hreceived, List.append_assoc],
    fun hb => ?_, fun hb => ?_⟩
  · obtain ⟨hqueue, hbuffer⟩ := hdirect hb
    obtain ⟨hqueue', hbuffer'⟩ := hdirect' (h.buffering.trans hb)
    exact ⟨by rw [hqueue', hqueue, List.append_assoc], hbuffer'.trans hbuffer⟩
  · obtain ⟨hqueue, hbuffer⟩ := hbuffered hb
    obtain ⟨hqueue', hbuffer'⟩ := hbuffered' (h.buffering.trans hb)
    exact ⟨hqueue'.trans hqueue, by rw [hbuffer', hbuffer, List.append_assoc]⟩

theorem adds_handleItem {item : CandlePayload} {now : Time} (h : f.handleItem item now = .ok f') : Adds f f' := by
  unfold WebSocketFeed.handleItem at h
  cases hparse : parseCandle item item.s.toUpper item.i now with
  | error exc =>
    simp only [hparse, bind, Except.bind] at h
    split_ifs at h
    cases h
    exact Adds.nothing rfl rfl rfl rfl
  | ok raw =>
    simp only [hparse, bind, Except.bind] at h
    split_ifs at h with hskip hdirect
    · cases h
      exact Adds.nothing rfl rfl rfl rfl
    · cases h
      refine ⟨rfl, [raw], rfl, fun _ => ⟨rfl, rfl⟩, fun hb => ?_⟩
      simp [hb] at hdirect
    · cases h
      refine ⟨rfl, [raw], rfl, fun hb => ?_, fun _ => ⟨rfl, rfl⟩⟩
      simp [hb] at hdirect

theorem adds_handleCandle {now : Time} {items : List CandlePayload} : Adds f (f.handleCandle now items).1 := by
  induction items generalizing f with
  | nil => exact Adds.nothing rfl rfl rfl rfl
  | cons item items ih =>
    unfold WebSocketFeed.handleCandle
    cases hitem : f.handleItem item now with
    | error exc => exact Adds.nothing rfl rfl rfl rfl
    | ok f' => exact (adds_handleItem hitem).trans ih

theorem adds_readOnce (f : WebSocketFeed) (m : Message) : Adds f (f.readOnce m).1 := by
  cases m with
  | candles items now => exact adds_handleCandle
  | subscriptionResponse coin interval =>
    unfold WebSocketFeed.readOnce WebSocketFeed.handleSubscriptionAck
    simp only
    split_ifs
    · exact Adds.nothing rfl rfl rfl rfl
    · exact Adds.nothing rfl rfl rfl rfl
  | other => exact Adds.nothing rfl rfl rfl rfl

theorem adds_readerLoop (f : WebSocketFeed) (m : Message) : Adds f (f.readerLoop m) := by
  have hread := adds_readOnce f m
  unfold WebSocketFeed.readerLoop
  split_ifs
  · exact Adds.nothing rfl rfl rfl rfl
  · rcases hresult : f.readOnce m with ⟨f', _ | exc⟩
    · rw [hresult] at hread
      exact hread
    · rw [hresult] at hread
      exact hread.trans (Adds.nothing rfl rfl rfl rfl)

theorem adds_readerLost (f : WebSocketFeed) (error : String) : Adds f (f.readerLost error) := by
  unfold WebSocketFeed.readerLost
  split_ifs
  · exact Adds.nothing rfl rfl rfl rfl
  · exact Adds.nothing rfl rfl rfl rfl

theorem adds_heartbeatLost (f : WebSocketFeed) (error : String) : Adds f (f.heartbeatLost error) := by
  unfold WebSocketFeed.heartbeatLost
  split_ifs
  · exact Adds.nothing rfl rfl rfl rfl
  · exact Adds.nothing rfl rfl rfl rfl

theorem Held.adds {rt' : MarketDataRuntime} (h : Held rt) (hadds : Adds rt.ws rt'.ws)
    (hlog : rt'.ingestLog = rt.ingestLog) : Held rt' := by
  obtain ⟨raws, hreceived, hdirect, hbuffered⟩ := hadds.added
  have hraws : ingestedRaws rt' = ingestedRaws rt := by
    unfold ingestedRaws
    rw [hlog]
  cases hb : rt.ws.buffering with
  | false =>
    obtain ⟨hqueue, hbuffer⟩ := hdirect hb
    have hempty := h.direct hb
    refine ⟨fun key => ?_, fun _ => hbuffer.trans hempty⟩
    rw [hraws, hreceived, hqueue, hbuffer, lastOf_append, h.latest key, hempty, List.append_nil, List.append_nil,
      ← List.append_assoc, lastOf_append key _ raws]
  | true =>
    obtain ⟨hqueue, hbuffer⟩ := hbuffered hb
    refine ⟨fun key => ?_, fun hfalse => ?_⟩
    · rw [hraws, hreceived, hqueue, hbuffer, lastOf_append, h.latest key, ← List.append_assoc,
        lastOf_append key _ raws]
    · rw [hadds.buffering, hb] at hfalse
      cases hfalse

end Reading

section Steps

variable {rt : MarketDataRuntime} {call : Call} {t : Time} {action : Action}

def heard (rt : MarketDataRuntime) : Action → WebSocketFeed
  | .message m =>
    match rt.phase with
    | .connecting .. => rt.ws
    | .handshaking .. => (rt.ws.readOnce m).1
    | _ => rt.ws.readerLoop m
  | _ => rt.ws

def calling (phase : Phase) (action : Action) : Option Call :=
  match inProgress phase, action with
  | some (call, _), _ => some call
  | none, .start .. => some .start
  | none, .reconnect _ => some .reconnect
  | none, .processLive _ => some .processLive
  | none, _ => none

def broken (rt : MarketDataRuntime) : Phase → Action → Bool
  | .connecting .., .connect failure => failure.isSome
  | .handshaking .., .message m => (rt.ws.readOnce m).2.isSome
  | .handshaking .., .handshakeFailed _ => true
  | .backfilling _ t symbol timeframe _, .fetched fetchedMeta pages =>
    !decide (GoodAnswers rt t symbol timeframe fetchedMeta pages)
  | .idle, .timeout => false
  | _, .timeout => true
  | _, _ => false

def snapshotApart (rt : MarketDataRuntime) : Phase → Action → Bool
  | .backfilling _ t symbol timeframe _, .fetched _ (.ok items) =>
    match fetchCandles symbol timeframe (rt.backfillStart symbol timeframe t) t t items with
    | .ok raws => Apart raws (rt.ws.liveQueue ++ rt.ws.buffer)
    | .error _ => true
  | _, _ => true

/-- What is waiting is drained in the order of its receipt: no candle has updates in the queue and in the
buffer, those in the buffer are in the order of their open times, a snapshot shows no candle that updates
are waiting for, no call fails with updates in the buffer, and a poll takes all of the queue. -/
structure InTurn (rt : MarketDataRuntime) (action : Action) : Prop where
  flushable : Flushable (heard rt action)
  snapshot : snapshotApart rt rt.phase action = true
  kept : broken rt rt.phase action = true → carried (heard rt action).buffer = []
  drained : calling rt.phase action = some .processLive → (heard rt action).liveQueue.length ≤ maxItems

instance (f : WebSocketFeed) : Decidable (Flushable f) :=
  decidable_of_iff (Apart f.liveQueue f.buffer ∧ Aligned f.buffer) ⟨fun h => ⟨h.1, h.2⟩, fun h => ⟨h.1, h.2⟩⟩

instance (rt : MarketDataRuntime) (action : Action) : Decidable (InTurn rt action) :=
  decidable_of_iff (Flushable (heard rt action) ∧ snapshotApart rt rt.phase action = true ∧
    (broken rt rt.phase action = true → carried (heard rt action).buffer = []) ∧
    (calling rt.phase action = some .processLive → (heard rt action).liveQueue.length ≤ maxItems))
    ⟨fun h => ⟨h.1, h.2.1, h.2.2.1, h.2.2.2⟩, fun h => ⟨h.1, h.2, h.3, h.4⟩⟩

structure InOrder (rt : MarketDataRuntime) : Prop where
  held : Held rt
  idle : rt.phase = .idle → rt.ws.buffering = false

theorem settles_beginReconnect (h : InOrder rt) (hidle : rt.phase = .idle) :
    Settles call (rt.beginReconnect call t) := by
  have hempty := h.held.direct (h.idle hidle)
  refine Settles.pending ⟨fun key => ?_, fun hb => (by cases hb)⟩ fun hb => by cases hb
  have hlatest := h.held.latest key
  rw [hempty] at hlatest
  exact hlatest

theorem settles_start (h : InOrder rt) (hidle : rt.phase = .idle) (fetchedMeta : Except Exc Unit) :
    Settles .start (rt.start t fetchedMeta) := by
  have hempty := h.held.direct (h.idle hidle)
  have hbegun : Held { rt with ws := rt.ws.beginBuffer } := by
    refine ⟨fun key => ?_, fun hb => (by cases hb)⟩
    have hlatest := h.held.latest key
    rw [hempty] at hlatest
    exact hlatest
  unfold MarketDataRuntime.start
  split_ifs
  · exact ⟨h.held, h.idle, fun hcall => (by cases hcall)⟩
  · cases fetchedMeta with
    | error exc => exact settles_fail hbegun rfl
    | ok u =>
      exact ⟨hbegun.same rfl rfl rfl rfl rfl, fun hb => (by cases hb), fun _ _ hn => (by cases hn)⟩

theorem calling_of_inProgress (hcall : inProgress rt.phase = some (call, t)) (action : Action) :
    calling rt.phase action = some call := by
  unfold calling
  rw [hcall]

theorem settles_message (h : InOrder rt) (hregular : AllRegular rt.repository) (m : Message)
    (hcall : inProgress rt.phase = some (call, t)) (hturn : InTurn rt (.message m)) :
    Settles call (rt.message m) := by
  have hcalling := calling_of_inProgress hcall (.message m)
  unfold MarketDataRuntime.message
  cases hphase : rt.phase with
  | idle =>
    rw [hphase] at hcall
    cases hcall
  | connecting call' t' => exact ⟨h.held, h.idle, fun _ _ hn => (by cases hn)⟩
  | handshaking call' t' =>
    have hadds := adds_readOnce rt.ws m
    have hheard : heard rt (.message m) = (rt.ws.readOnce m).1 := by
      unfold heard
      simp only [hphase]
    have hflush := hturn.flushable
    have hkept := hturn.kept
    have hlength := hturn.drained
    rw [hheard] at hflush hkept hlength
    rw [hphase] at hcall hkept
    cases hcall
    cases hresult : rt.ws.readOnce m with
    | mk ws failure =>
      simp only [broken, hresult] at hadds hflush hkept hlength
      have hheld : Held { rt with ws := ws } := h.held.adds hadds rfl
      cases failure with
      | none =>
        refine settles_awaitAcks (hheld.same rfl rfl rfl rfl rfl) hregular hflush fun hlive => ?_
        exact hlength (hcalling.trans (congrArg some hlive))
      | some exc => exact settles_handshakeFailed (hheld.same rfl rfl rfl rfl rfl) (hkept rfl)
  | backingOff call' t' =>
    exact ⟨h.held.adds (adds_readerLoop rt.ws m) rfl, fun hb => (by cases hb), fun _ _ hn => (by cases hn)⟩
  | backfilling call' t' symbol timeframe rest =>
    exact ⟨h.held.adds (adds_readerLoop rt.ws m) rfl, fun hb => (by cases hb), fun _ _ hn => (by cases hn)⟩

theorem settles_timeout (h : InOrder rt) (hcall : inProgress rt.phase = some (call, t))
    (hturn : InTurn rt .timeout) : Settles call rt.timeout := by
  have hkept := hturn.kept
  have hlost : Held { rt with ws := rt.ws.lose "WebSocket reconnect cancelled" } := h.held.same rfl rfl rfl rfl rfl
  unfold MarketDataRuntime.timeout
  cases hphase : rt.phase with
  | idle =>
    rw [hphase] at hcall
    cases hcall
  | backingOff call' t' =>
    rw [hphase] at hcall hkept
    cases hcall
    simp only
    split_ifs
    · exact Settles.pending h.held h.idle
    · exact settles_fail (h.held.same rfl rfl rfl rfl rfl) (hkept rfl)
  | connecting call' t' =>
    rw [hphase] at hcall hkept
    cases hcall
    simp only
    split_ifs
    · exact Settles.pending h.held h.idle
    · exact settles_fail (hlost.same rfl rfl rfl rfl rfl) (hkept rfl)
  | handshaking call' t' =>
    rw [hphase] at hcall hkept
    cases hcall
    simp only
    split_ifs
    · exact Settles.pending h.held h.idle
    · exact settles_fail (hlost.same rfl rfl rfl rfl rfl) (hkept rfl)
  | backfilling call' t' symbol timeframe rest =>
    rw [hphase] at hcall hkept
    cases hcall
    simp only
    split_ifs
    · exact Settles.pending h.held h.idle
    · exact settles_fail (h.held.same rfl rfl rfl rfl rfl) (hkept rfl)

theorem settles_busy (h : InOrder rt) (hregular : AllRegular rt.repository)
    (hcall : inProgress rt.phase = some (call, t)) (hturn : InTurn rt action) :
    Settles call (rt.step action) := by
  have hwaits : Settles call (rt, .pending) := Settles.pending h.held h.idle
  have hcalling := calling_of_inProgress hcall action
  have hbusy : rt.phase ≠ .idle := by
    intro hidle
    rw [hidle] at hcall
    cases hcall
  have hlength : call = .processLive → (heard rt action).liveQueue.length ≤ maxItems := fun hlive =>
    hturn.drained (hcalling.trans (congrArg some hlive))
  have hflush := hturn.flushable
  have hkept := hturn.kept
  cases action with
  | message m => exact settles_message h hregular m hcall hturn
  | connectionLost error =>
    exact Settles.pending (h.held.adds (adds_readerLost rt.ws error) rfl) fun hidle => absurd hidle hbusy
  | heartbeatLost error =>
    exact Settles.pending (h.held.adds (adds_heartbeatLost rt.ws error) rfl) fun hidle => absurd hidle hbusy
  | start t' fetchedMeta =>
    simp only [MarketDataRuntime.step, if_neg hbusy]
    exact hwaits
  | processLive t' =>
    simp only [MarketDataRuntime.step, if_neg hbusy]
    exact hwaits
  | reconnect t' =>
    simp only [MarketDataRuntime.step, if_neg hbusy]
    exact hwaits
  | awake =>
    simp only [MarketDataRuntime.step]
    split
    · exact Settles.pending (h.held.same rfl rfl rfl rfl rfl) fun hb => by cases hb
    · exact hwaits
  | connect failure =>
    simp only [MarketDataRuntime.step]
    split
    · rename_i call' t' exc hphase
      rw [hphase] at hcall hkept
      cases hcall
      exact settles_handshakeFailed h.held (hkept rfl)
    · rename_i call' t' hphase
      rw [hphase] at hcall
      cases hcall
      exact settles_awaitAcks (h.held.same rfl rfl rfl rfl rfl) hregular ⟨hflush.apart, hflush.aligned⟩ hlength
    · exact hwaits
  | handshakeFailed exc =>
    simp only [MarketDataRuntime.step]
    split
    · rename_i call' t' hphase
      rw [hphase] at hcall hkept
      cases hcall
      exact settles_handshakeFailed h.held (hkept rfl)
    · exact hwaits
  | fetched fetchedMeta pages =>
    have hsnapshot := hturn.snapshot
    simp only [MarketDataRuntime.step]
    split
    · rename_i call' t' symbol timeframe rest hphase
      rw [hphase] at hcall hkept hsnapshot
      cases hcall
      refine settles_backfillSymbol h.held hregular hflush hlength symbol timeframe rest ?_ fun hbad => ?_
      · rintro items raws rfl hfetched
        unfold snapshotApart at hsnapshot
        simp only [hfetched] at hsnapshot
        exact of_decide_eq_true hsnapshot
      · exact hkept (by simp [broken, hbad])
    · exact hwaits
  | timeout => exact settles_timeout h hcall hturn

theorem settles_idle (h : InOrder rt) (hidle : rt.phase = .idle) (hturn : InTurn rt action) :
    Settles ((calling rt.phase action).getD .reconnect) (rt.step action) := by
  have hdirect := h.idle hidle
  have hlength := hturn.drained
  rw [hidle] at hlength ⊢
  have hwaits : Settles .reconnect (rt, .pending) := Settles.pending h.held h.idle
  cases action with
  | message m =>
    have hadds := adds_readerLoop rt.ws m
    simp only [MarketDataRuntime.step, MarketDataRuntime.message, hidle]
    exact Settles.pending (h.held.adds hadds rfl) fun _ => hadds.buffering.trans hdirect
  | connectionLost error =>
    have hadds := adds_readerLost rt.ws error
    exact Settles.pending (h.held.adds hadds rfl) fun _ => hadds.buffering.trans hdirect
  | heartbeatLost error =>
    have hadds := adds_heartbeatLost rt.ws error
    exact Settles.pending (h.held.adds hadds rfl) fun _ => hadds.buffering.trans hdirect
  | start t' fetchedMeta =>
    simp only [MarketDataRuntime.step, if_pos hidle]
    exact settles_start h hidle fetchedMeta
  | processLive t' =>
    simp only [MarketDataRuntime.step, if_pos hidle]
    unfold MarketDataRuntime.processLive
    split_ifs
    · exact settles_ingestLive h.held hidle hdirect fun _ => hlength rfl
    · exact settles_beginReconnect h hidle
  | reconnect t' =>
    simp only [MarketDataRuntime.step, if_pos hidle]
    unfold MarketDataRuntime.reconnect
    split_ifs
    · exact ⟨h.held, h.idle, fun hcall => (by cases hcall)⟩
    · exact settles_beginReconnect h hidle
  | awake =>
    simp only [MarketDataRuntime.step, hidle]
    exact hwaits
  | connect failure =>
    simp only [MarketDataRuntime.step, hidle]
    exact hwaits
  | handshakeFailed exc =>
    simp only [MarketDataRuntime.step, hidle]
    exact hwaits
  | fetched fetchedMeta pages =>
    simp only [MarketDataRuntime.step, hidle]
    exact hwaits
  | timeout =>
    simp only [MarketDataRuntime.step, MarketDataRuntime.timeout, hidle]
    exact hwaits

end Steps

section Runs

variable {rt : MarketDataRuntime} {actions : List Action} {action : Action}

theorem inProgress_eq_none {phase : Phase} : inProgress phase = none ↔ phase = .idle := by
  cases phase <;> simp [inProgress]

theorem settles_step (h : InOrder rt) (hregular : AllRegular rt.repository) (hturn : InTurn rt action) :
    Settles ((calling rt.phase action).getD .reconnect) (rt.step action) := by
  cases hcall : inProgress rt.phase with
  | none => exact settles_idle h (inProgress_eq_none.mp hcall) hturn
  | some current =>
    obtain ⟨call, t⟩ := current
    rw [calling_of_inProgress hcall]
    exact settles_busy h hregular hcall hturn

def AllInTurn : MarketDataRuntime → List Action → Prop
  | _, [] => True
  | rt, action :: actions => InTurn rt action ∧ AllInTurn (rt.step action).1 actions

instance : ∀ rt actions, Decidable (AllInTurn rt actions)
  | _, [] => .isTrue trivial
  | rt, action :: actions =>
    have := instDecidableAllInTurn (rt.step action).1 actions
    inferInstanceAs (Decidable (InTurn rt action ∧ AllInTurn (rt.step action).1 actions))

structure Orderly (rt : MarketDataRuntime) : Prop where
  stored : Guarded (fun rt => Values (StillOpen rt) rt.repository (ingestedRaws rt)) rt
  regular : Guarded (fun rt => AllRegular rt.repository) rt
  order : InOrder rt

theorem orderly_step (h : Orderly rt) (hturn : InTurn rt action) : Orderly (rt.step action).1 := by
  have hsettles := settles_step h.order h.regular.data hturn
  exact ⟨guarded_step storedRules h.stored action, guarded_step regularRules h.regular action,
    ⟨hsettles.held, hsettles.idle⟩⟩

theorem orderly_run (h : Orderly rt) (hturns : AllInTurn rt actions) : Orderly (rt.run actions) := by
  induction actions generalizing rt with
  | nil => exact h
  | cons action actions ih => exact ih (orderly_step h hturns.1) hturns.2

theorem allInTurn_append : AllInTurn rt (actions ++ [action]) ↔
    AllInTurn rt actions ∧ InTurn (rt.run actions) action := by
  induction actions generalizing rt with
  | nil => simp [AllInTurn, MarketDataRuntime.run]
  | cons first actions ih =>
    rw [List.cons_append, AllInTurn, ih, AllInTurn, and_assoc]
    rfl

def LatestStored (rt : MarketDataRuntime) : Prop :=
  ∀ key, StillOpen rt key → (rt.repository.get? key).map flagged = (lastOf key rt.ws.received).map shown

def LatestWins (rt : MarketDataRuntime) (action : Action) : Prop :=
  calling rt.phase action = some .processLive → ∀ n, (rt.step action).2 = .returned n →
    LatestStored (rt.step action).1

theorem orderly_fresh (config : HyperliquidPublicConfig) : Orderly { ws := { config } } := by
  have hprovider : Provider ({ config } : WebSocketFeed) := ⟨by simp, by simp⟩
  refine ⟨⟨⟨by simp, fun key _ => rfl⟩, hprovider, trivial⟩, ⟨fun c hc => (by cases hc), hprovider, trivial⟩, ?_⟩
  exact ⟨⟨fun key => rfl, fun _ => rfl⟩, fun _ => rfl⟩

/-- When every step of a run is in turn, `process_live` leaves the latest update of every open candle. -/
theorem latest_update_wins (config : HyperliquidPublicConfig)
    (hturns : AllInTurn { ws := { config } } (actions ++ [action])) :
    LatestWins (MarketDataRuntime.run { ws := { config } } actions) action := by
  obtain ⟨hrun, hturn⟩ := allInTurn_append.mp hturns
  have horderly := orderly_run (orderly_fresh config) hrun
  intro hcalling n hn key hstill
  have hsettles := settles_step horderly.order horderly.regular.data hturn
  rw [hcalling] at hsettles
  obtain ⟨hidle, hqueue⟩ := hsettles.drained rfl n hn
  have hbuffer := hsettles.held.direct (hsettles.idle hidle)
  rw [(orderly_step horderly hturn).stored.data.values key hstill, hsettles.held.latest key, hqueue, hbuffer,
    List.append_nil, List.append_nil]

/-- A reconnect after which the day goes on. -/
theorem snapshot_wins :
    LatestWins (MarketDataRuntime.run { ws := { config := btcConfig } } reconnecting)
      (.fetched (.ok ()) (.ok [btcDaily 101])) ∧
    ((MarketDataRuntime.run { ws := { config := btcConfig } } reconnecting).step
      (.fetched (.ok ()) (.ok [btcDaily 101]))).2 = .returned 0 := by
  have hturns : AllInTurn { ws := { config := btcConfig } }
      (reconnecting ++ [.fetched (.ok ()) (.ok [btcDaily 101])]) := by decide +kernel
  exact ⟨latest_update_wins btcConfig hturns, by decide +kernel⟩

def undrained : List Action :=
  reconnecting.take 4 ++ .message (.candles [btcDaily 101] (19723 * day + second)) :: reconnecting.drop 4

/-- The update of before the reconnect takes the place of the snapshot that came after it. -/
theorem undrained_update_wins : ¬ ∀ (config : HyperliquidPublicConfig) (actions : List Action) (action : Action),
    LatestWins (MarketDataRuntime.run { ws := { config } } actions) action := by
  intro h
  have hstored := h btcConfig undrained (.fetched (.ok ()) (.ok [btcDaily 102])) (by decide +kernel) 1
    (by decide +kernel) ⟨.BTC, .daily, 19723 * day⟩ (by decide +kernel)
  revert hstored
  decide +kernel

end Runs

end TradingBot.Market.LatestUpdate
