import TradingBot.Market.RuntimeFacts

namespace TradingBot.Market.LiveConflicts

open Market.Models Market.Repository Market.Timeframes Market.Quality Market.Provider Market.Feed Market.Ingest
open Market.Aggregation Market.IngestFacts Market.Runtime Market.RuntimeFacts MarketDataRuntime Exceptions

/-- A candle message with the clock at its receipt, or a poll of the runtime. -/
inductive FeedEvent
  | receive (items : List CandlePayload) (now : Time)
  | poll (evaluationTime : Time)
deriving DecidableEq, Repr

def FeedEvent.action : FeedEvent → Action
  | .receive items now => .message (.candles items now)
  | .poll evaluationTime => .processLive evaluationTime

def connectedFeed (config : HyperliquidPublicConfig) : WebSocketFeed :=
  let feed : WebSocketFeed := { config }
  { feed with
    status := .connected
    readerAlive := true
    ackedSubs := feed.expectedSubs }

def connected (config : HyperliquidPublicConfig) : MarketDataRuntime :=
  { ws := connectedFeed config
    started := true }

structure Receipt where
  raw : RawCandle
  now : Time
deriving DecidableEq, Repr

def subscribedTo (config : HyperliquidPublicConfig) (item : CandlePayload) : Bool :=
  (connectedFeed config).takesIn (subKey item.s.toUpper item.i)

def receiptOf (config : HyperliquidPublicConfig) (now : Time) (item : CandlePayload) : Option Receipt :=
  if subscribedTo config item then (parseCandle item item.s.toUpper item.i now).toOption.map (⟨·, now⟩)
  else none

def receiptsOf (config : HyperliquidPublicConfig) : FeedEvent → List Receipt
  | .receive items now => items.filterMap (receiptOf config now)
  | .poll _ => []

def receipts (config : HyperliquidPublicConfig) (events : List FeedEvent) : List Receipt :=
  events.flatMap (receiptsOf config)

/-- No update of a subscribed series breaks the connection. -/
def Parsed (config : HyperliquidPublicConfig) : FeedEvent → Prop
  | .receive items now => ∀ item ∈ items, subscribedTo config item →
      (parseCandle item item.s.toUpper item.i now).isOk
  | .poll _ => True

instance (config : HyperliquidPublicConfig) : DecidablePred (Parsed config)
  | .receive items now => inferInstanceAs (Decidable (∀ item ∈ items, subscribedTo config item →
      (parseCandle item item.s.toUpper item.i now).isOk))
  | .poll _ => .isTrue trivial

section Honesty

def SameValues (a b : RawCandle) : Prop :=
  a.openPrice = b.openPrice ∧ a.high = b.high ∧ a.low = b.low ∧ a.close = b.close ∧ a.volume = b.volume

instance (a b : RawCandle) : Decidable (SameValues a b) := by
  unfold SameValues
  infer_instance

/-- The updates of a candle come in the order of time, name one close time, and carry the same values from
that time on. -/
structure Honest (received : List Receipt) : Prop where
  ordered : received.Pairwise fun x y => keyOf x.raw = keyOf y.raw → x.now ≤ y.now
  closes : received.Pairwise fun x y => keyOf x.raw = keyOf y.raw → x.raw.closeTime = y.raw.closeTime
  final : received.Pairwise fun x y => keyOf x.raw = keyOf y.raw → x.raw.closeTime ≤ x.now →
    y.raw.closeTime ≤ y.now → SameValues x.raw y.raw

/-- What an honest feed looks like once the updates are parsed. -/
def Consistent (x y : RawCandle) : Prop :=
  keyOf x = keyOf y → x.isClosed → y.isClosed ∧ SameValues x y

theorem mem_receipts {config : HyperliquidPublicConfig} {events : List FeedEvent} {x : Receipt}
    (hx : x ∈ receipts config events) : ∃ item, subscribedTo config item = true ∧
      parseCandle item item.s.toUpper item.i x.now = .ok x.raw := by
  obtain ⟨event, _, hx⟩ := List.mem_flatMap.mp hx
  cases event with
  | poll t => cases hx
  | receive items now =>
    obtain ⟨item, _, hx⟩ := List.mem_filterMap.mp hx
    unfold receiptOf at hx
    split_ifs at hx with hsubscribed
    cases hparse : parseCandle item item.s.toUpper item.i now with
    | error exc =>
      rw [hparse] at hx
      cases hx
    | ok raw =>
      rw [hparse] at hx
      cases hx
      exact ⟨item, hsubscribed, hparse⟩

theorem isClosed_of_mem_receipts {config : HyperliquidPublicConfig} {events : List FeedEvent} {x : Receipt}
    (hx : x ∈ receipts config events) : x.raw.isClosed = decide (x.raw.closeTime ≤ x.now) := by
  obtain ⟨item, _, hparse⟩ := mem_receipts hx
  exact (parseCandle_ok hparse).1

theorem timeframe_of_mem_receipts {config : HyperliquidPublicConfig} {events : List FeedEvent} {x : Receipt}
    (hx : x ∈ receipts config events) : x.raw.timeframe ≠ .weekly := by
  obtain ⟨item, hsubscribed, hparse⟩ := mem_receipts hx
  exact timeframe_of_takesIn hsubscribed hparse

theorem Honest.consistent {config : HyperliquidPublicConfig} {events : List FeedEvent}
    (h : Honest (receipts config events)) :
    (receipts config events).Pairwise fun x y => Consistent x.raw y.raw := by
  refine ((h.ordered.and h.closes).and h.final).imp_of_mem ?_
  rintro x y hx hy ⟨⟨hordered, hcloses⟩, hfinal⟩ hkey hclosed
  rw [isClosed_of_mem_receipts hx, decide_eq_true_eq] at hclosed
  have hlater : y.raw.closeTime ≤ y.now := (hcloses hkey ▸ hclosed).trans (hordered hkey)
  refine ⟨?_, hfinal hkey hclosed hlater⟩
  rw [isClosed_of_mem_receipts hy, decide_eq_true_eq]
  exact hlater

end Honesty

section Drains

def drained (config : HyperliquidPublicConfig) : List Receipt → List FeedEvent → List (Receipt × Time)
  | _, [] => []
  | queue, .receive items now :: events =>
    drained config (queue ++ receiptsOf config (.receive items now)) events
  | queue, .poll t :: events =>
    (queue.take maxItems).map (·, t) ++ drained config (queue.drop maxItems) events

theorem drained_prefix (config : HyperliquidPublicConfig) (queue : List Receipt) (events : List FeedEvent) :
    (drained config queue events).map Prod.fst <+: queue ++ receipts config events := by
  induction events generalizing queue with
  | nil => exact List.nil_prefix
  | cons event events ih =>
    cases event with
    | receive items now =>
      have hrest := ih (queue ++ receiptsOf config (.receive items now))
      rw [List.append_assoc] at hrest
      exact hrest
    | poll t =>
      have hpoll : receipts config (.poll t :: events) = receipts config events := rfl
      have hsplit : queue ++ receipts config events =
          queue.take maxItems ++ (queue.drop maxItems ++ receipts config events) := by
        rw [← List.append_assoc, List.take_append_drop]
      have hid : (Prod.fst ∘ fun x : Receipt => (x, t)) = id := rfl
      rw [hpoll, hsplit, drained, List.map_append, List.map_map, hid, List.map_id]
      exact (List.prefix_append_right_inj _).mpr (ih (queue.drop maxItems))

end Drains

section Settlement

def previous (before : List (Receipt × Time)) (key : CandleKey) : Option RawCandle :=
  ((before.map fun x => x.1.raw).filter fun raw => Admissible raw ∧ keyOf raw = key).getLast?

/-- An update received before the provider's close and drained after the canonical one repeats the values
of the update before it. -/
def Continues (before : List (Receipt × Time)) (x : Receipt × Time) : Prop :=
  Admissible x.1.raw → x.1.raw.isClosed = false → (candleOf x.1.raw x.2).closeTime ≤ x.2 →
    ∀ y ∈ previous before (keyOf x.1.raw), SameValues y x.1.raw

instance (before : List (Receipt × Time)) (x : Receipt × Time) : Decidable (Continues before x) := by
  unfold Continues
  infer_instance

def Settled (before : List (Receipt × Time)) : List (Receipt × Time) → Prop
  | [] => True
  | x :: rest => Continues before x ∧ Settled (before ++ [x]) rest

instance : ∀ before rest, Decidable (Settled before rest)
  | _, [] => .isTrue trivial
  | before, x :: rest =>
    have := instDecidableSettled (before ++ [x]) rest
    inferInstanceAs (Decidable (Continues before x ∧ Settled (before ++ [x]) rest))

variable {r : CandleRepository} {before rest : List (Receipt × Time)} {x : Receipt × Time} {raw y : RawCandle}
  {t : Time} {b : Bool}

/-- The candle stored for an update, whose flag depends on the poll. -/
def storedAs (raw : RawCandle) (b : Bool) : Candle := { candleOf raw 0 with isClosed := b }

theorem candleOf_eq (raw : RawCandle) (t : Time) : candleOf raw t =
    storedAs raw (raw.isClosed && isCandleClosed (candleOf raw t).closeTime t) := rfl

theorem storedAs_inj (hkey : keyOf y = keyOf raw) {b' : Bool} :
    storedAs y b = storedAs raw b' ↔ SameValues y raw ∧ b = b' := by
  have hsymbol : symbolOf y = symbolOf raw := congrArg CandleKey.symbol hkey
  have htimeframe : y.timeframe = raw.timeframe := congrArg CandleKey.timeframe hkey
  have hopen : canonicalOpen y.timeframe y.openTime = canonicalOpen raw.timeframe raw.openTime :=
    congrArg CandleKey.openTime hkey
  rw [htimeframe] at hopen
  simp only [storedAs, candleOf, CandleOf.mk.injEq, hsymbol, htimeframe, hopen, true_and, SameValues]
  tauto

/-- As long as there is no conflict, every key holds the values of its last update; a stored candle is
closed only if that update was received at or after the provider's close. -/
def Tracks (before : List (Receipt × Time)) (r : CandleRepository) : Prop :=
  ∀ key, match previous before key with
    | none => r.get? key = none
    | some y => ∃ b, r.get? key = some (storedAs y b) ∧ (b = true → y.isClosed = true)

theorem previous_append (before : List (Receipt × Time)) (x : Receipt × Time) (key : CandleKey) :
    previous (before ++ [x]) key =
      if Admissible x.1.raw ∧ keyOf x.1.raw = key then some x.1.raw else previous before key := by
  unfold previous
  rw [List.map_append, List.filter_append]
  by_cases h : Admissible x.1.raw ∧ keyOf x.1.raw = key
  · simp [h]
  · rw [if_neg h]
    simp [h]

theorem previous_eq_some (h : previous before (keyOf raw) = some y) :
    (∃ x ∈ before, x.1.raw = y) ∧ keyOf y = keyOf raw := by
  obtain ⟨hmem, hcond⟩ := List.mem_filter.mp (List.mem_of_getLast? h)
  obtain ⟨x, hx, rfl⟩ := List.mem_map.mp hmem
  exact ⟨⟨x, hx, rfl⟩, (of_decide_eq_true hcond).2⟩

theorem upsertLive_tracked (htracks : Tracks before r) (hraw : Admissible x.1.raw)
    (hconsistent : ∀ z ∈ before, Consistent z.1.raw x.1.raw) :
    ((upsertLiveReturn r (candleOf x.1.raw x.2) x.2).2 = none ↔ Continues before x) ∧
    (Continues before x → liveValue (r.get? (keyOf x.1.raw)) (candleOf x.1.raw x.2) x.2 =
      candleOf x.1.raw x.2) := by
  have hkey := htracks (keyOf x.1.raw)
  unfold Continues upsertLiveReturn liveValue
  rw [key_candleOf]
  cases hprevious : previous before (keyOf x.1.raw) with
  | none =>
    rw [hprevious] at hkey
    rw [hkey]
    simp
  | some y =>
    rw [hprevious] at hkey
    obtain ⟨b, hstored, hclosed⟩ := hkey
    obtain ⟨⟨z, hz, rfl⟩, hsame⟩ := previous_eq_some hprevious
    have hlater : z.1.raw.isClosed = true → x.1.raw.isClosed = true ∧ SameValues z.1.raw x.1.raw :=
      hconsistent z hz hsame
    have hcloseTime : (storedAs z.1.raw b).closeTime = (candleOf x.1.raw x.2).closeTime := by
      have htimeframe : z.1.raw.timeframe = x.1.raw.timeframe := congrArg CandleKey.timeframe hsame
      have hopen := congrArg CandleKey.openTime hsame
      simp only [keyOf, htimeframe] at hopen
      simp only [storedAs, candleOf, htimeframe, hopen]
    have hflag : (storedAs z.1.raw b).isClosed = b := rfl
    have hnew : (candleOf x.1.raw x.2).isClosed =
        (x.1.raw.isClosed && isCandleClosed (candleOf x.1.raw x.2).closeTime x.2) := rfl
    have hequal : storedAs z.1.raw b = candleOf x.1.raw x.2 ↔ SameValues z.1.raw x.1.raw ∧
        b = (x.1.raw.isClosed && isCandleClosed (candleOf x.1.raw x.2).closeTime x.2) := by
      rw [candleOf_eq x.1.raw x.2]
      exact storedAs_inj hsame
    rw [hstored]
    simp only [hcloseTime, hflag, hnew]
    by_cases ht : (candleOf x.1.raw x.2).closeTime ≤ x.2
    · have hpast : isCandleClosed (candleOf x.1.raw x.2).closeTime x.2 = true := decide_eq_true ht
      cases hlast : x.1.raw.isClosed with
      | false =>
        have hb : b = false := by
          by_contra hb
          have hfinal := (hlater (hclosed (by simpa using hb))).1
          rw [hlast] at hfinal
          cases hfinal
        subst hb
        by_cases hvalues : SameValues z.1.raw x.1.raw
        · have hkept := hequal.mpr ⟨hvalues, by simp [hlast]⟩
          simp [hkept, hvalues]
        · have hchanged : storedAs z.1.raw false ≠ candleOf x.1.raw x.2 := fun h => hvalues (hequal.mp h).1
          simp [hchanged, hvalues, hpast, hraw, ht]
      | true =>
        cases b with
        | false =>
          simp only [hpast]
          split_ifs <;> simp_all
        | true =>
          have hkept := hequal.mpr ⟨(hlater (hclosed rfl)).2, by simp [hlast, hpast]⟩
          simp [hkept]
    · have hopen : isCandleClosed (candleOf x.1.raw x.2).closeTime x.2 = false := decide_eq_false ht
      simp only [hopen]
      split_ifs <;> simp_all

theorem tracks_append (htracks : Tracks before r) (hconsistent : ∀ z ∈ before, Consistent z.1.raw x.1.raw)
    (hcontinues : Continues before x) : Tracks (before ++ [x]) (ingested x.2 r x.1.raw) := by
  intro key
  rw [previous_append]
  unfold ingested
  by_cases hraw : Admissible x.1.raw
  · rw [if_pos hraw, get?_upsertLive]
    by_cases hkey : keyOf x.1.raw = key
    · subst hkey
      rw [if_pos ⟨hraw, rfl⟩, key_candleOf, if_pos rfl]
      refine ⟨_, congrArg some ((upsertLive_tracked htracks hraw hconsistent).2 hcontinues), fun hclosed => ?_⟩
      exact (Bool.and_eq_true_iff.mp hclosed).1
    · rw [if_neg fun h => hkey h.2, key_candleOf, if_neg (Ne.symm hkey)]
      exact htracks key
  · rw [if_neg fun h => hraw h.1, if_neg hraw]
    exact htracks key

def conflictsAfter (r : CandleRepository) (updates : List (Receipt × Time)) : List CandleConflict :=
  (updates.foldl (fun r x => ingested x.2 r x.1.raw) r).conflicts

theorem conflicts_subset (r : CandleRepository) (updates : List (Receipt × Time)) :
    r.conflicts ⊆ conflictsAfter r updates := by
  unfold conflictsAfter
  induction updates generalizing r with
  | nil => exact List.Subset.refl _
  | cons x rest ih =>
    refine List.Subset.trans ?_ (ih (ingested x.2 r x.1.raw))
    rw [conflicts_ingested]
    split_ifs
    · exact List.subset_append_left _ _
    · exact List.Subset.refl _

theorem conflictsAfter_eq_nil_iff (htracks : Tracks before r) (hnone : r.conflicts = [])
    (hconsistent : (before ++ rest).Pairwise fun x y => Consistent x.1.raw y.1.raw) :
    conflictsAfter r rest = [] ↔ Settled before rest := by
  induction rest generalizing before r with
  | nil => exact iff_of_true hnone trivial
  | cons x rest ih =>
    have hbefore : ∀ z ∈ before, Consistent z.1.raw x.1.raw := fun z hz =>
      (List.pairwise_append.mp hconsistent).2.2 z hz x List.mem_cons_self
    have hstep : (ingested x.2 r x.1.raw).conflicts = [] ↔ Continues before x := by
      rw [conflicts_ingested, hnone]
      by_cases hraw : Admissible x.1.raw
      · rw [if_pos hraw, List.nil_append, ← (upsertLive_tracked htracks hraw hbefore).1]
        cases (upsertLiveReturn r (candleOf x.1.raw x.2) x.2).2 <;> simp
      · rw [if_neg hraw]
        exact iff_of_true rfl fun h => absurd h hraw
    have hrest : (before ++ [x] ++ rest).Pairwise fun x y => Consistent x.1.raw y.1.raw := by
      rw [List.append_assoc]
      exact hconsistent
    constructor
    · intro hconflicts
      have hfirst : (ingested x.2 r x.1.raw).conflicts = [] :=
        List.subset_nil.mp (hconflicts ▸ conflicts_subset (ingested x.2 r x.1.raw) rest)
      have hcontinues := hstep.mp hfirst
      exact ⟨hcontinues, (ih (tracks_append htracks hbefore hcontinues) hfirst hrest).mp hconflicts⟩
    · rintro ⟨hcontinues, hsettled⟩
      exact (ih (tracks_append htracks hbefore hcontinues) (hstep.mpr hcontinues) hrest).mpr hsettled

end Settlement

section Runs

variable {config : HyperliquidPublicConfig} {r r' : CandleRepository} {rt : MarketDataRuntime} {t : Time}

structure SameSeries (r r' : CandleRepository) : Prop where
  get : ∀ key : CandleKey, key.timeframe ≠ .weekly → r.get? key = r'.get? key
  conflicts : r.conflicts.filter (·.key.timeframe ≠ .weekly) = r'.conflicts.filter (·.key.timeframe ≠ .weekly)

theorem sameSeries_ingested {raw : RawCandle} (h : SameSeries r r') (hraw : raw.timeframe ≠ .weekly) :
    SameSeries (ingested t r raw) (ingested t r' raw) := by
  have hreturn : upsertLiveReturn r (candleOf raw t) t = upsertLiveReturn r' (candleOf raw t) t := by
    unfold upsertLiveReturn
    rw [h.get _ hraw]
  constructor
  · intro key hkey
    unfold ingested
    split_ifs
    · rw [get?_upsertLive, get?_upsertLive, h.get key hkey, h.get _ hraw]
    · exact h.get key hkey
  · rw [conflicts_ingested, conflicts_ingested, hreturn]
    split_ifs
    · rw [List.filter_append, List.filter_append, h.conflicts]
    · exact h.conflicts

theorem sameSeries_upsert {week : Candle} (h : SameSeries r r') (hweek : week.timeframe = .weekly) :
    SameSeries r (r'.upsert week) := by
  constructor
  · intro key hkey
    rw [get?_upsert, if_neg (fun he => hkey (by rw [he]; exact hweek))]
    exact h.get key hkey
  · rw [conflicts_upsert, List.filter_append, h.conflicts]
    have hnone : (upsertReturn r' week).2.toList.filter (·.key.timeframe ≠ .weekly) = [] := by
      unfold upsertReturn
      cases r'.get? week.key with
      | none => rfl
      | some existing =>
        simp only
        split_ifs
        · rfl
        · simp [Candle.key, hweek]
    rw [hnone, List.append_nil]

theorem sameSeries_refresh (h : SameSeries r r') (symbols : List Symbol) :
    SameSeries r (refreshed symbols t r') := by
  have hmany : ∀ (weeks : List Candle) (r' : CandleRepository), (∀ week ∈ weeks, week.timeframe = .weekly) →
      SameSeries r r' → SameSeries r (upsertMany r' weeks) := by
    intro weeks
    induction weeks with
    | nil => exact fun r' _ h => h
    | cons week weeks ih =>
      intro r' hweeks h
      exact ih _ (fun w hw => hweeks w (List.mem_cons_of_mem _ hw))
        (sameSeries_upsert h (hweeks week List.mem_cons_self))
  induction symbols generalizing r' with
  | nil => exact h
  | cons symbol symbols ih =>
    refine ih (hmany _ _ (fun week hweek => ?_) h)
    obtain ⟨weekStart, _, hweek⟩ := List.mem_filterMap.mp hweek
    exact congrArg CandleKey.timeframe (weekOf_eq_some hweek).1

/-- The runtime is connected and between two calls. -/
structure Listening (config : HyperliquidPublicConfig) (queue : List Receipt) (rt : MarketDataRuntime) : Prop where
  idle : rt.phase = .idle
  settings : rt.ws.config = config
  status : rt.ws.status = .connected
  reader : rt.ws.readerAlive = true
  acked : rt.ws.ackedSubs = (connectedFeed config).expectedSubs
  direct : rt.ws.buffering = false
  queue : rt.ws.liveQueue = queue.map Receipt.raw

theorem handleItem_parsed {f : WebSocketFeed} {item : CandlePayload} {now : Time} {raw : RawCandle}
    (htakes : f.takesIn (subKey item.s.toUpper item.i) = true)
    (hparse : parseCandle item item.s.toUpper item.i now = .ok raw) (hdirect : f.buffering = false) :
    f.handleItem item now = .ok { f with
      liveQueue := f.liveQueue ++ [raw]
      received := f.received ++ [raw] } := by
  unfold WebSocketFeed.handleItem
  simp only [htakes, hparse, bind, Except.bind]
  rw [if_neg (by simp), if_pos (by simp [hdirect])]
  rfl

theorem handleCandle_parsed {f : WebSocketFeed} {items : List CandlePayload} {now : Time}
    (hconfig : f.config = config) (hacked : f.ackedSubs = (connectedFeed config).expectedSubs)
    (hdirect : f.buffering = false) (hparsed : Parsed config (.receive items now)) :
    f.handleCandle now items = ({ f with
      liveQueue := f.liveQueue ++ (items.filterMap (receiptOf config now)).map Receipt.raw
      received := f.received ++ (items.filterMap (receiptOf config now)).map Receipt.raw }, none) := by
  induction items generalizing f with
  | nil => simp [WebSocketFeed.handleCandle]
  | cons item items ih =>
    have hrest : Parsed config (.receive items now) := fun i hi => hparsed i (List.mem_cons_of_mem _ hi)
    have htakes : f.takesIn (subKey item.s.toUpper item.i) = subscribedTo config item := by
      unfold subscribedTo WebSocketFeed.takesIn
      rw [hacked, hdirect]
      unfold WebSocketFeed.expectedSubs
      rw [hconfig]
      rfl
    unfold WebSocketFeed.handleCandle
    by_cases hsubscribed : subscribedTo config item = true
    · have hok := hparsed item List.mem_cons_self hsubscribed
      cases hparse : parseCandle item item.s.toUpper item.i now with
      | error exc =>
        rw [hparse] at hok
        cases hok
      | ok raw =>
        have hreceipt : receiptOf config now item = some ⟨raw, now⟩ := by
          simp [receiptOf, hsubscribed, hparse, Except.toOption]
        rw [handleItem_parsed (htakes.trans hsubscribed) hparse hdirect]
        have hnext := ih (f := { f with
          liveQueue := f.liveQueue ++ [raw]
          received := f.received ++ [raw] }) hconfig hacked hdirect hrest
        simp only [hnext, List.filterMap_cons, hreceipt, List.map_cons, List.append_assoc, List.singleton_append]
    · have hreceipt : receiptOf config now item = none := by simp [receiptOf, hsubscribed]
      have hskip : f.handleItem item now = .ok f := by
        unfold WebSocketFeed.handleItem
        simp only [htakes]
        rw [if_pos (by simpa using hsubscribed)]
      rw [hskip, List.filterMap_cons, hreceipt]
      exact ih hconfig hacked hdirect hrest

theorem listening_message {queue : List Receipt} {items : List CandlePayload} {now : Time}
    (h : Listening config queue rt) (hparsed : Parsed config (.receive items now)) :
    Listening config (queue ++ receiptsOf config (.receive items now))
      (rt.step (.message (.candles items now))).1 ∧
    (rt.step (.message (.candles items now))).1.repository = rt.repository := by
  have hmessage : rt.step (.message (.candles items now)) =
      ({ rt with ws := rt.ws.readerLoop (.candles items now) }, .pending) := by
    unfold MarketDataRuntime.step MarketDataRuntime.message
    rw [h.idle]
  have hread : rt.ws.readerLoop (.candles items now) = { rt.ws with
      liveQueue := rt.ws.liveQueue ++ (items.filterMap (receiptOf config now)).map Receipt.raw
      received := rt.ws.received ++ (items.filterMap (receiptOf config now)).map Receipt.raw } := by
    unfold WebSocketFeed.readerLoop
    have hitems : rt.ws.readOnce (.candles items now) = _ :=
      handleCandle_parsed h.settings h.acked h.direct hparsed
    rw [if_neg (by simp [h.reader]), hitems]
  rw [hmessage, hread]
  refine ⟨⟨h.idle, h.settings, h.status, h.reader, h.acked, h.direct, ?_⟩, rfl⟩
  rw [List.map_append, ← h.queue]
  rfl

theorem listening_poll {queue : List Receipt} (h : Listening config queue rt) (t : Time) :
    Listening config (queue.drop maxItems) (rt.step (.processLive t)).1 ∧
    SameSeries (((queue.take maxItems).map (·, t)).foldl (fun r x => ingested x.2 r x.1.raw) rt.repository)
      (rt.step (.processLive t)).1.repository := by
  have hstep : rt.step (.processLive t) = rt.ingestLive t := by
    have hconnected : rt.ws.status ≠ .reconnecting := by simp [h.status]
    unfold MarketDataRuntime.step MarketDataRuntime.processLive
    simp only [h.idle, if_true]
    rw [if_pos hconnected]
  have hlive : (rt.ingestLive t).1 =
      afterRefresh (afterIngest { rt with ws := (rt.ws.drainEvents maxItems).1 }
        (rt.ws.liveQueue.take maxItems) t) t := ingestLive_eq rt t
  rw [hstep, hlive]
  constructor
  · refine ⟨h.idle, h.settings, h.status, h.reader, h.acked, h.direct, ?_⟩
    simp only [afterRefresh, afterIngest, WebSocketFeed.drainEvents]
    rw [h.queue, List.map_drop]
  · refine sameSeries_refresh ?_ _
    simp only [afterIngest]
    rw [h.queue, ← List.map_take, List.foldl_map, List.foldl_map]
    exact ⟨fun _ _ => rfl, rfl⟩

theorem SameSeries.trans {r'' : CandleRepository} (h : SameSeries r r') (h' : SameSeries r' r'') :
    SameSeries r r'' :=
  ⟨fun key hkey => (h.get key hkey).trans (h'.get key hkey), h.conflicts.trans h'.conflicts⟩

theorem sameSeries_foldl {updates : List (Receipt × Time)} (h : SameSeries r r')
    (hupdates : ∀ x ∈ updates, x.1.raw.timeframe ≠ .weekly) :
    SameSeries (updates.foldl (fun r x => ingested x.2 r x.1.raw) r)
      (updates.foldl (fun r x => ingested x.2 r x.1.raw) r') := by
  induction updates generalizing r r' with
  | nil => exact h
  | cons x updates ih =>
    exact ih (sameSeries_ingested h (hupdates x List.mem_cons_self))
      fun y hy => hupdates y (List.mem_cons_of_mem _ hy)

theorem run_drained {queue : List Receipt} {events : List FeedEvent} (h : Listening config queue rt)
    (hparsed : ∀ event ∈ events, Parsed config event) (hqueue : ∀ x ∈ queue, x.raw.timeframe ≠ .weekly)
    (hsame : SameSeries r rt.repository) :
    SameSeries ((drained config queue events).foldl (fun r x => ingested x.2 r x.1.raw) r)
      (rt.run (events.map FeedEvent.action)).repository := by
  induction events generalizing queue rt r with
  | nil => exact hsame
  | cons event events ih =>
    have hrest : ∀ e ∈ events, Parsed config e := fun e he => hparsed e (List.mem_cons_of_mem _ he)
    cases event with
    | receive items now =>
      obtain ⟨hlistening, hrepository⟩ := listening_message h (hparsed _ List.mem_cons_self)
      refine ih hlistening hrest (fun x hx => ?_) (hrepository ▸ hsame)
      rcases List.mem_append.mp hx with hx | hx
      · exact hqueue x hx
      · have hmem : x ∈ receipts config [.receive items now] := by simpa [receipts] using hx
        exact timeframe_of_mem_receipts hmem
    | poll t =>
      obtain ⟨hlistening, hpoll⟩ := listening_poll h t
      have htaken : ∀ x ∈ (queue.take maxItems).map (·, t), x.1.raw.timeframe ≠ .weekly := by
        intro x hx
        obtain ⟨y, hy, rfl⟩ := List.mem_map.mp hx
        exact hqueue y (List.mem_of_mem_take hy)
      rw [drained, List.foldl_append]
      exact ih hlistening hrest (fun x hx => hqueue x (List.mem_of_mem_drop hx))
        ((sameSeries_foldl hsame htaken).trans hpoll)

theorem connected_listening (config : HyperliquidPublicConfig) : Listening config [] (connected config) :=
  ⟨rfl, rfl, rfl, rfl, rfl, rfl, rfl⟩

/-- No update that was ingested has met a conflict; the weeks are derived and never ingested. -/
def NoLiveConflict (r : CandleRepository) : Prop :=
  ∀ conflict ∈ r.conflicts, conflict.key.timeframe = .weekly

theorem noLiveConflict_iff : NoLiveConflict r ↔ r.conflicts.filter (·.key.timeframe ≠ .weekly) = [] := by
  simp [NoLiveConflict, List.filter_eq_nil_iff]

theorem conflictsAfter_provider {updates : List (Receipt × Time)}
    (hupdates : ∀ x ∈ updates, x.1.raw.timeframe ≠ .weekly)
    (hr : ∀ conflict ∈ r.conflicts, conflict.key.timeframe ≠ .weekly) :
    ∀ conflict ∈ conflictsAfter r updates, conflict.key.timeframe ≠ .weekly := by
  unfold conflictsAfter
  induction updates generalizing r with
  | nil => exact hr
  | cons x updates ih =>
    refine ih (fun y hy => hupdates y (List.mem_cons_of_mem _ hy)) fun conflict hconflict => ?_
    rw [conflicts_ingested] at hconflict
    split_ifs at hconflict
    · rcases List.mem_append.mp hconflict with hold | hnew
      · exact hr conflict hold
      · rw [key_of_upsertLiveReturn hnew]
        exact hupdates x List.mem_cons_self
    · exact hr conflict hconflict

/-- An honest feed meets no conflict exactly when every update received before its candle's close by the
provider's clock and drained after the canonical close repeats the values of the update before it. -/
theorem live_conflict_free_iff {events : List FeedEvent} (hparsed : ∀ event ∈ events, Parsed config event)
    (hhonest : Honest (receipts config events)) :
    NoLiveConflict ((connected config).run (events.map FeedEvent.action)).repository ↔
      Settled [] (drained config [] events) := by
  have hdrained : (drained config [] events).map Prod.fst <+: receipts config events :=
    drained_prefix config [] events
  have hprovider : ∀ x ∈ drained config [] events, x.1.raw.timeframe ≠ .weekly := fun x hx =>
    timeframe_of_mem_receipts (hdrained.subset (List.mem_map_of_mem hx))
  have hreceived : ((drained config [] events).map Prod.fst).Pairwise fun x y => Consistent x.raw y.raw :=
    hhonest.consistent.sublist hdrained.sublist
  have hconsistent : (drained config [] events).Pairwise fun x y => Consistent x.1.raw y.1.raw :=
    (List.pairwise_map (f := Prod.fst)).mp hreceived
  have hempty : Tracks [] {} := fun key => rfl
  have hrun := run_drained (r := {}) (connected_listening config) hparsed (by simp) ⟨fun _ _ => rfl, rfl⟩
  have hall := conflictsAfter_provider (r := {}) hprovider (by simp)
  rw [noLiveConflict_iff, ← hrun.conflicts, ← conflictsAfter_eq_nil_iff hempty rfl hconsistent]
  unfold conflictsAfter at hall ⊢
  rw [List.filter_eq_self.mpr (by simpa using hall)]

end Runs

section Samples

def btcItem (price : Decimal) : CandlePayload :=
  { s := "BTC", i := "1d", t := 1704067200000, T := 1704153599999
    o := 100, h := 110, l := 90, c := price, v := 10 }

def atSecond (n : ℕ) : Time := 19723 * day + n * second

def closingFeed : List FeedEvent :=
  [.receive [btcItem 100] (atSecond 86390), .poll (atSecond 86395), .receive [btcItem 101] (atSecond 86397),
    .poll (atSecond 86401), .receive [btcItem 101] (atSecond 86402), .poll (atSecond 86405)]

def quietFeed : List FeedEvent :=
  [.receive [btcItem 100] (atSecond 86390), .receive [btcItem 101] (atSecond 86392), .poll (atSecond 86395),
    .receive [btcItem 101] (atSecond 86397), .poll (atSecond 86401), .receive [btcItem 102] (atSecond 86402),
    .poll (atSecond 86405)]

theorem quiet_feed_has_no_conflict :
    NoLiveConflict ((connected {}).run (quietFeed.map FeedEvent.action)).repository := by
  have hparsed : ∀ event ∈ quietFeed, Parsed {} event := by decide +kernel
  have hhonest : Honest (receipts {} quietFeed) := ⟨by decide +kernel, by decide +kernel, by decide +kernel⟩
  exact (live_conflict_free_iff hparsed hhonest).mpr (by decide +kernel)

def pollTimes (events : List FeedEvent) : List Time :=
  events.filterMap fun
    | .poll t => some t
    | .receive _ _ => none

/-- An ordinary close: the last update of the day comes between two polls. -/
theorem closing_feed_conflicts : ¬ ∀ (config : HyperliquidPublicConfig) (events : List FeedEvent),
    (∀ event ∈ events, Parsed config event) → Honest (receipts config events) →
    (pollTimes events).Pairwise (· ≤ ·) →
    NoLiveConflict ((connected config).run (events.map FeedEvent.action)).repository := by
  intro h
  have hconflict := h {} closingFeed (by decide +kernel) ⟨by decide +kernel, by decide +kernel, by decide +kernel⟩
    (by decide +kernel)
  revert hconflict
  unfold NoLiveConflict
  decide +kernel

end Samples

end TradingBot.Market.LiveConflicts
