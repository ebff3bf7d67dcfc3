import TradingBot.Paper.Bridge

namespace TradingBot.Paper.EventFairness

open Market.Models Market.Repository Exceptions Library.Transaction Paper.Models Paper.Repository
open Paper.MarketEvents Paper.Bridge

section Groups

def symbolOrder : Symbol → ℕ
  | .BTC => 0
  | .ETH => 1
  | .SOL => 2

def eventOrder : MarketEventType → ℕ
  | .dailyOpenAvailable => 0
  | .dailyLiveUpdate => 1
  | .dailyClosed => 2
  | .weeklyClosed => 3
  | .monthlyClosed => 4

/-- The kind of an event and the open of its candle, to the second. -/
structure GroupKey where
  eventType : MarketEventType
  seconds : ℤ
deriving DecidableEq, Repr

def marketEventGroupKey (e : MarketEvent) : GroupKey := ⟨e.eventType, wholeSeconds e.candleOpenTime⟩

structure MarketEventGroupState where
  nextAttemptAt : Time
  deferCount : ℕ
deriving DecidableEq, Repr

def sortsBefore (a b : MarketEvent) : Prop :=
  symbolOrder a.symbol < symbolOrder b.symbol ∨ symbolOrder a.symbol = symbolOrder b.symbol ∧
    (eventOrder a.eventType < eventOrder b.eventType ∨ eventOrder a.eventType = eventOrder b.eventType ∧
      a.candleOpenTime ≤ b.candleOpenTime)

instance : DecidableRel sortsBefore := fun a b => by
  unfold sortsBefore
  infer_instance

def sortMarketEvents (events : List MarketEvent) : List MarketEvent := events.insertionSort sortsBefore

abbrev Group := GroupKey × List MarketEvent

def groupOf (candidates : List MarketEvent) (key : GroupKey) : Group :=
  (key, (candidates.filter fun e => marketEventGroupKey e = key).insertionSort
    fun a b => symbolOrder a.symbol ≤ symbolOrder b.symbol)

def groupEvents (candidates : List MarketEvent) : List Group :=
  (candidates.map marketEventGroupKey).dedup.map (groupOf candidates)

def groupTime (group : Group) : Time := (group.2.head?.map (·.candleOpenTime)).getD 0

def orderedGroups (groups : List Group) : List Group :=
  groups.insertionSort fun a b => eventOrder a.1.eventType < eventOrder b.1.eventType ∨
    eventOrder a.1.eventType = eventOrder b.1.eventType ∧ groupTime a ≤ groupTime b

def eligibleGroups (groups : List Group) (evaluationTime : Time)
    (states : GroupKey → Option MarketEventGroupState) : List Group :=
  groups.filter fun group => (states group.1).all (·.nextAttemptAt ≤ evaluationTime)

def computeRetryBackoffSeconds (deferCount : ℕ) : ℕ := min 30 (2 ^ (min (max deferCount 1) 5 - 1))

def nextRetryAt (evaluationTime : Time) (deferCount : ℕ) : Time :=
  evaluationTime + computeRetryBackoffSeconds deferCount * second

def advanceGroupRotationCursor (cursor eligibleCount groupsRotated : ℕ) (hadDeferred : Bool) : ℕ :=
  if eligibleCount = 0 then cursor
  else if hadDeferred then (cursor + 1) % eligibleCount
  else if groupsRotated = 0 then cursor
  else (cursor + groupsRotated) % eligibleCount

end Groups

section Polls

/-- What is stored about the groups between the polls. -/
structure FairnessTables where
  states : GroupKey → Option MarketEventGroupState := fun _ => none
  cursor : ℕ := 0

def FairnessTables.set (tables : FairnessTables) (key : GroupKey) (state : Option MarketEventGroupState) :
    FairnessTables :=
  { tables with states := fun key' => if key' = key then state else tables.states key' }

structure MarketEventPoll where
  detector : MarketEventDetector
  candleRepository : CandleRepository
  bridge : MarketEvent → MarketEventBridge
  evaluationTime : Time
  marketDataReady : Bool := true
  lockHeld : Bool := true
  sessionHealthy : Bool := true
  maxEventsPerPoll : ℕ := 256
  symbols_nodup : detector.symbols.Nodup
  bridge_candles : ∀ e, (bridge e).builder.candles = candleRepository

/-- An event that was processed. `before` is not in the source: the tables that its turn found. -/
structure EventTurn where
  event : MarketEvent
  before : Db
  outcome : EventProcessOutcome

structure PollProgress where
  turns : List EventTurn := []
  tables : FairnessTables
  groupsRotated : ℕ := 0
  hadDeferred : Bool := false

structure BridgePollResult where
  turns : List EventTurn := []
  deferredEvents : Bool := false

namespace BridgePollResult

variable (result : BridgePollResult)

def outcomes : List EventProcessOutcome := result.turns.map (·.outcome)

def eventsToAck : List MarketEvent := (result.turns.filter fun t => shouldAck t.outcome).map (·.event)

def eventsTerminalFailed : List MarketEvent :=
  (result.turns.filter fun t => t.outcome.terminalFailed).map (·.event)

def permanentFailures : List EventProcessOutcome :=
  (result.turns.filter fun t => !(t.outcome.deferred || t.outcome.retryable) &&
    decide (t.outcome.status = .failed)).map (·.outcome)

end BridgePollResult

namespace MarketEventPoll

variable (p : MarketEventPoll)

def candidates : List MarketEvent := p.detector.detectCandidates p.candleRepository p.evaluationTime

def clearGroupFairnessState (tables : FairnessTables) (key : GroupKey) : Query FairnessTables :=
  match tables.states key with
  | none => pure tables
  | some _ => do
    flush .databaseError
    pure (tables.set key none)

/-- `known` are the states read at the start of the poll. -/
def recordGroupDeferred (known : GroupKey → Option MarketEventGroupState) (tables : FairnessTables)
    (key : GroupKey) : Query FairnessTables := do
  let deferCount := ((known key).map (·.deferCount + 1)).getD 1
  flush .databaseError
  pure (tables.set key (some ⟨nextRetryAt p.evaluationTime deferCount, deferCount⟩))

def recordOutcome (known : GroupKey → Option MarketEventGroupState) (tables : FairnessTables)
    (key : GroupKey) (o : EventProcessOutcome) : Query FairnessTables := do
  let tables ← if o.terminalFailed then clearGroupFairnessState tables key else pure tables
  if o.deferred || o.retryable then p.recordGroupDeferred known tables key
  else if o.status = .failed || o.status = .completed then clearGroupFairnessState tables key
  else pure tables

/-- The events of a group, up to the first that is put off. -/
def processGroup (known : GroupKey → Option MarketEventGroupState) (key : GroupKey) :
    List MarketEvent → PollProgress → Query PollProgress
  | [], g => pure g
  | e :: events, g =>
    if p.maxEventsPerPoll ≤ g.turns.length then pure g
    else do
      let before ← read id
      let outcome ← (p.bridge e).processEvent e
      let tables ← p.recordOutcome known g.tables key outcome
      let g := { g with
        turns := g.turns ++ [⟨e, before, outcome⟩]
        tables }
      if outcome.deferred || outcome.retryable then pure { g with hadDeferred := true }
      else processGroup known key events g

def processGroups (known : GroupKey → Option MarketEventGroupState) :
    List Group → PollProgress → Query PollProgress
  | [], g => pure g
  | group :: groups, g =>
    if p.maxEventsPerPoll ≤ g.turns.length then pure g
    else do
      let g ← p.processGroup known group.1 group.2 { g with groupsRotated := g.groupsRotated + 1 }
      processGroups known groups g

def schedule (tables : FairnessTables) : List Group :=
  let eligible := eligibleGroups (orderedGroups (groupEvents (sortMarketEvents p.candidates))) p.evaluationTime
    tables.states
  eligible.rotate (tables.cursor % eligible.length)

def processAfterPoll (tables : FairnessTables) : Query (BridgePollResult × FairnessTables) :=
  if !p.marketDataReady || !p.lockHeld || !p.sessionHealthy then pure ({}, tables)
  else do
    let groups := p.schedule tables
    let g ← p.processGroups tables.states groups { tables }
    flush .databaseError
    let cursor := advanceGroupRotationCursor tables.cursor groups.length g.groupsRotated g.hadDeferred
    pure ({ turns := g.turns, deferredEvents := g.hadDeferred }, { g.tables with cursor })

end MarketEventPoll

end Polls

section Turns

variable {p : MarketEventPoll} {known : GroupKey → Option MarketEventGroupState} {g g' : PollProgress}
  {s s' : Session Db}

def Taken (p : MarketEventPoll) (t : EventTurn) : Prop :=
  ∃ u u', u.db = t.before ∧ (p.bridge t.event).processEvent t.event u = (.ok t.outcome, u')

/-- What a loop adds: turns that were taken, for some of the events in their order. -/
structure TakesSome (p : MarketEventPoll) (events : List MarketEvent) (g g' : PollProgress) : Prop where
  added : ∃ turns, g'.turns = g.turns ++ turns ∧ (turns.map (·.event)).Sublist events ∧ ∀ t ∈ turns, Taken p t

theorem TakesSome.none (p : MarketEventPoll) (events : List MarketEvent) (hturns : g'.turns = g.turns) :
    TakesSome p events g g' :=
  ⟨[], by simpa using hturns, List.nil_sublist _, by simp⟩

theorem takesSome_processGroup {key : GroupKey} {events : List MarketEvent}
    (h : p.processGroup known key events g s = (.ok g', s')) : TakesSome p events g g' := by
  induction events generalizing g s with
  | nil =>
    obtain ⟨rfl, rfl⟩ := pure_eq_ok.mp h
    exact TakesSome.none p _ rfl
  | cons e events ih =>
    unfold MarketEventPoll.processGroup at h
    split_ifs at h with hfull
    · obtain ⟨rfl, rfl⟩ := pure_eq_ok.mp h
      exact TakesSome.none p _ rfl
    · obtain ⟨before, u, hbefore, h⟩ := bind_eq_ok.mp h
      obtain ⟨hdb, rfl⟩ := read_eq_ok.mp hbefore
      obtain ⟨outcome, u, hprocess, h⟩ := bind_eq_ok.mp h
      obtain ⟨tables, v, _, h⟩ := bind_eq_ok.mp h
      have htaken : Taken p ⟨e, before, outcome⟩ := ⟨_, _, hdb, hprocess⟩
      simp only at h
      split_ifs at h with hdeferred
      · obtain ⟨rfl, rfl⟩ := pure_eq_ok.mp h
        refine ⟨[⟨e, before, outcome⟩], rfl, ?_, by simpa using htaken⟩
        simp
      · obtain ⟨turns, hturns, hsub, hall⟩ := (ih h).added
        refine ⟨⟨e, before, outcome⟩ :: turns, ?_, ?_, ?_⟩
        · rw [hturns, List.append_assoc]
          rfl
        · exact hsub.cons_cons e
        · exact List.forall_mem_cons.mpr ⟨htaken, hall⟩

theorem takesSome_processGroups {groups : List Group}
    (h : p.processGroups known groups g s = (.ok g', s')) : TakesSome p (groups.flatMap (·.2)) g g' := by
  induction groups generalizing g s with
  | nil =>
    obtain ⟨rfl, rfl⟩ := pure_eq_ok.mp h
    exact TakesSome.none p _ rfl
  | cons group groups ih =>
    unfold MarketEventPoll.processGroups at h
    split_ifs at h with hfull
    · obtain ⟨rfl, rfl⟩ := pure_eq_ok.mp h
      exact TakesSome.none p _ rfl
    · obtain ⟨next, u, hgroup, hrest⟩ := bind_eq_ok.mp h
      obtain ⟨turns, hturns, hsub, hall⟩ := (takesSome_processGroup hgroup).added
      obtain ⟨later, hlater, hsub', hall'⟩ := (ih hrest).added
      refine ⟨turns ++ later, ?_, ?_, ?_⟩
      · rw [hlater, hturns, List.append_assoc]
      · rw [List.map_append, List.flatMap_cons]
        exact hsub.append hsub'
      · intro t ht
        rcases List.mem_append.mp ht with ht | ht
        · exact hall t ht
        · exact hall' t ht

end Turns

section Schedule

variable {candidates : List MarketEvent}

theorem mem_groupOf {key : GroupKey} {e : MarketEvent} :
    e ∈ (groupOf candidates key).2 ↔ e ∈ candidates ∧ marketEventGroupKey e = key := by
  rw [groupOf, List.mem_insertionSort, List.mem_filter, decide_eq_true_eq]

theorem nodup_groups (h : candidates.Nodup) : ((groupEvents candidates).flatMap (·.2)).Nodup := by
  unfold groupEvents
  rw [List.flatMap_map]
  refine List.nodup_flatMap.mpr ⟨fun key _ => ?_, ?_⟩
  · exact (List.perm_insertionSort _ _).nodup_iff.mpr (h.filter _)
  · refine (List.nodup_dedup _).imp fun {key key'} hne e he he' => ?_
    exact hne ((mem_groupOf.mp he).2.symm.trans (mem_groupOf.mp he').2)

theorem mem_groups {e : MarketEvent} (h : e ∈ (groupEvents candidates).flatMap (·.2)) : e ∈ candidates := by
  obtain ⟨group, hgroup, he⟩ := List.mem_flatMap.mp h
  obtain ⟨key, _, rfl⟩ := List.mem_map.mp hgroup
  exact (mem_groupOf.mp he).1

theorem schedule_candidates (p : MarketEventPoll) (tables : FairnessTables) (h : p.candidates.Nodup) :
    ((p.schedule tables).flatMap (·.2)).Nodup ∧ ∀ e ∈ (p.schedule tables).flatMap (·.2), e ∈ p.candidates := by
  have hsorted : (sortMarketEvents p.candidates).Perm p.candidates := List.perm_insertionSort _ _
  have hordered : (orderedGroups (groupEvents (sortMarketEvents p.candidates))).Perm
      (groupEvents (sortMarketEvents p.candidates)) := List.perm_insertionSort _ _
  have hrotated : ((p.schedule tables).flatMap (·.2)).Perm ((eligibleGroups (orderedGroups
      (groupEvents (sortMarketEvents p.candidates))) p.evaluationTime tables.states).flatMap (·.2)) :=
    (List.rotate_perm _ _).flatMap_right _
  have heligible : ((eligibleGroups (orderedGroups (groupEvents (sortMarketEvents p.candidates))) p.evaluationTime
      tables.states).flatMap (·.2)).Sublist
        ((orderedGroups (groupEvents (sortMarketEvents p.candidates))).flatMap (·.2)) :=
    List.filter_sublist.flatMap _
  have hgroups := hordered.flatMap_right (f := (·.2))
  have hnodup := hgroups.nodup_iff.mpr (nodup_groups (hsorted.nodup_iff.mpr h))
  refine ⟨hrotated.nodup_iff.mpr (hnodup.sublist heligible), fun e he => hsorted.mem_iff.mp (mem_groups ?_)⟩
  exact hgroups.subset (heligible.subset (hrotated.subset he))

end Schedule

end TradingBot.Paper.EventFairness
