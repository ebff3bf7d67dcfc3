import TradingBot.Library.RoundRobin
import TradingBot.Paper.PollAcknowledgement

namespace TradingBot.Paper.FairRotation

open Market.Models Market.Repository Library.Transaction Library.RoundRobin Paper.Models Paper.Repository
open Paper.MarketEvents Paper.Bridge Paper.EventFairness Paper.EventEffects Exceptions

section Keys

variable {candidates : List MarketEvent} {a b : Group}

def KeyBefore (a b : GroupKey) : Prop :=
  eventOrder a.eventType < eventOrder b.eventType ∨ a.eventType = b.eventType ∧ a.seconds < b.seconds

instance : Std.Asymm KeyBefore := ⟨by
  rintro a b (h | ⟨h, hlt⟩) (h' | ⟨h', hlt'⟩)
  · omega
  · rw [h'] at h
    omega
  · rw [h] at h'
    omega
  · omega⟩

theorem eventOrder_injective : Function.Injective eventOrder := by
  intro a b h
  cases a <;> cases b <;> first | rfl | cases h

theorem mem_groupEvents (h : a ∈ groupEvents candidates) :
    a.2 ≠ [] ∧ ∀ e ∈ a.2, marketEventGroupKey e = a.1 := by
  obtain ⟨key, hkey, rfl⟩ := List.mem_map.mp h
  obtain ⟨e, he, rfl⟩ := List.mem_map.mp (List.mem_dedup.mp hkey)
  refine ⟨fun hnil => ?_, fun e he => (mem_groupOf.mp he).2⟩
  have hmem : e ∈ (groupOf candidates (marketEventGroupKey e)).2 := mem_groupOf.mpr ⟨he, rfl⟩
  rw [hnil] at hmem
  cases hmem

theorem wholeSeconds_groupTime (h : a ∈ groupEvents candidates) : wholeSeconds (groupTime a) = a.1.seconds := by
  obtain ⟨hne, hkey⟩ := mem_groupEvents h
  obtain ⟨e, events, hevents⟩ := List.exists_cons_of_ne_nil hne
  have he := hkey e (by rw [hevents]; exact List.mem_cons_self)
  rw [← he, groupTime, hevents]
  rfl

theorem keys_groupEvents (candidates : List MarketEvent) :
    (groupEvents candidates).map (·.1) = (candidates.map marketEventGroupKey).dedup := by
  rw [groupEvents, List.map_map]
  exact List.map_id _

def GroupLE (a b : Group) : Prop :=
  eventOrder a.1.eventType < eventOrder b.1.eventType ∨
    eventOrder a.1.eventType = eventOrder b.1.eventType ∧ groupTime a ≤ groupTime b

instance : DecidableRel GroupLE := fun a b => by
  unfold GroupLE
  infer_instance

instance : Std.Total GroupLE := ⟨fun a b => by
  obtain h | h | h := lt_trichotomy (eventOrder a.1.eventType) (eventOrder b.1.eventType)
  · exact .inl (.inl h)
  · exact (le_total (groupTime a) (groupTime b)).imp (fun hle => .inr ⟨h, hle⟩) fun hle => .inr ⟨h.symm, hle⟩
  · exact .inr (.inl h)⟩

instance : IsTrans Group GroupLE := ⟨by
  rintro a b c (h | ⟨h, hle⟩) (h' | ⟨h', hle'⟩)
  · exact .inl (h.trans h')
  · exact .inl (h.trans_eq h')
  · exact .inl (h.trans_lt h')
  · exact .inr ⟨h.trans h', hle.trans hle'⟩⟩

theorem pairwise_orderedGroups (candidates : List MarketEvent) :
    ((orderedGroups (groupEvents candidates)).map (·.1)).Pairwise KeyBefore := by
  have hsorted : (orderedGroups (groupEvents candidates)).Pairwise GroupLE :=
    List.pairwise_insertionSort GroupLE (groupEvents candidates)
  have hperm : (orderedGroups (groupEvents candidates)).Perm (groupEvents candidates) :=
    List.perm_insertionSort _ _
  have hnodup : ((orderedGroups (groupEvents candidates)).map (·.1)).Nodup := by
    rw [(hperm.map _).nodup_iff, keys_groupEvents]
    exact List.nodup_dedup _
  rw [List.pairwise_map]
  refine (hsorted.and (List.pairwise_map.mp hnodup)).imp_of_mem ?_
  rintro a b ha hb ⟨hlt | ⟨htype, htime⟩, hne⟩
  · exact .inl hlt
  · have htype := eventOrder_injective htype
    have hseconds : a.1.seconds ≤ b.1.seconds := by
      rw [← wholeSeconds_groupTime (hperm.subset ha), ← wholeSeconds_groupTime (hperm.subset hb)]
      exact Int.ediv_le_ediv (by decide) htime
    refine .inr ⟨htype, lt_of_le_of_ne hseconds fun h => hne ?_⟩
    cases hkey : a.1
    cases hkey' : b.1
    rw [hkey, hkey'] at htype h
    simp only at htype h
    rw [htype, h]

theorem nodup_of_keyBefore {keys : List GroupKey} (h : keys.Pairwise KeyBefore) : keys.Nodup :=
  h.imp fun {a b} hab heq => by
    subst heq
    exact Std.Asymm.asymm a a hab hab

theorem eq_of_keyBefore {keys keys' : List GroupKey} (h : keys.Pairwise KeyBefore) (h' : keys'.Pairwise KeyBefore)
    (hmem : ∀ key, key ∈ keys ↔ key ∈ keys') : keys = keys' := by
  have hperm := (List.perm_ext_iff_of_nodup (nodup_of_keyBefore h) (nodup_of_keyBefore h')).mpr hmem
  exact hperm.eq_of_pairwise (fun a b _ _ hab hba => absurd hba (Std.Asymm.asymm a b hab)) h h'

end Keys

section Schedule

def eligible (p : MarketEventPoll) (tables : FairnessTables) : List Group :=
  eligibleGroups (orderedGroups (groupEvents (sortMarketEvents p.candidates))) p.evaluationTime tables.states

def eligibleKeys (p : MarketEventPoll) (tables : FairnessTables) : List GroupKey := (eligible p tables).map (·.1)

variable {p : MarketEventPoll} {tables : FairnessTables} {group : Group}

theorem schedule_eq (p : MarketEventPoll) (tables : FairnessTables) :
    p.schedule tables = (eligible p tables).rotate (tables.cursor % (eligible p tables).length) := rfl

theorem length_eligibleKeys (p : MarketEventPoll) (tables : FairnessTables) :
    (eligibleKeys p tables).length = (eligible p tables).length := List.length_map _

theorem pairwise_eligibleKeys (p : MarketEventPoll) (tables : FairnessTables) :
    (eligibleKeys p tables).Pairwise KeyBefore :=
  (pairwise_orderedGroups (sortMarketEvents p.candidates)).sublist (List.filter_sublist.map _)

theorem schedule_keys (p : MarketEventPoll) (tables : FairnessTables) : (p.schedule tables).map (·.1) =
    (eligibleKeys p tables).rotate (tables.cursor % (eligibleKeys p tables).length) := by
  rw [schedule_eq, List.map_rotate, length_eligibleKeys]
  rfl

theorem mem_schedule (h : group ∈ p.schedule tables) :
    group = groupOf (sortMarketEvents p.candidates) group.1 ∧ group.2 ≠ [] := by
  rw [schedule_eq, List.mem_rotate] at h
  have hgroup : group ∈ groupEvents (sortMarketEvents p.candidates) :=
    List.mem_insertionSort _ |>.mp (List.mem_of_mem_filter h)
  refine ⟨?_, (mem_groupEvents hgroup).1⟩
  obtain ⟨key, _, rfl⟩ := List.mem_map.mp hgroup
  rfl

end Schedule

section Visits

variable {p : MarketEventPoll} {known : GroupKey → Option MarketEventGroupState} {g g' : PollProgress}
  {s s' : Session Db} {events : List MarketEvent} {turns : List EventTurn}

/-- The turns of a group in a poll: its events in their order, and none after one that is put off. -/
structure Visited (events : List MarketEvent) (turns : List EventTurn) : Prop where
  order : turns.map (·.event) <+: events
  blocks : ∀ earlier t later, turns = earlier ++ t :: later →
    (t.outcome.deferred || t.outcome.retryable) = true → later = []

theorem Visited.nil (events : List MarketEvent) : Visited events [] :=
  ⟨List.nil_prefix, fun earlier t later h => by simp at h⟩

theorem Visited.single {t : EventTurn} : Visited (t.event :: events) [t] := by
  refine ⟨by simp, fun earlier t' later h _ => ?_⟩
  cases earlier with
  | nil => exact (List.cons.inj h).2.symm
  | cons first earlier => simp at h

theorem Visited.cons {t : EventTurn} (ht : (t.outcome.deferred || t.outcome.retryable) = false)
    (h : Visited events turns) : Visited (t.event :: events) (t :: turns) := by
  refine ⟨by simpa using h.order, fun earlier t' later heq hput => ?_⟩
  cases earlier with
  | nil =>
    obtain ⟨rfl, _⟩ := List.cons.inj heq
    rw [ht] at hput
    cases hput
  | cons first earlier => exact h.blocks earlier t' later (List.cons.inj heq).2 hput

theorem visited_processGroup {key : GroupKey} (h : p.processGroup known key events g s = (.ok g', s')) :
    g'.groupsRotated = g.groupsRotated ∧ ∃ turns, g'.turns = g.turns ++ turns ∧ Visited events turns ∧
      (events ≠ [] → g.turns.length < p.maxEventsPerPoll → turns ≠ []) := by
  induction events generalizing g s with
  | nil =>
    obtain ⟨rfl, rfl⟩ := pure_eq_ok.mp h
    exact ⟨rfl, [], by simp, Visited.nil _, fun hne => absurd rfl hne⟩
  | cons e events ih =>
    unfold MarketEventPoll.processGroup at h
    split_ifs at h with hfull
    · obtain ⟨rfl, rfl⟩ := pure_eq_ok.mp h
      exact ⟨rfl, [], by simp, Visited.nil _, fun _ hlt => absurd hfull (by omega)⟩
    · obtain ⟨before, u, _, h⟩ := bind_eq_ok.mp h
      obtain ⟨outcome, u, _, h⟩ := bind_eq_ok.mp h
      obtain ⟨tables, v, _, h⟩ := bind_eq_ok.mp h
      simp only at h
      split_ifs at h with hput
      · obtain ⟨rfl, rfl⟩ := pure_eq_ok.mp h
        exact ⟨rfl, [⟨e, before, outcome⟩], rfl, Visited.single (t := ⟨e, before, outcome⟩), by simp⟩
      · obtain ⟨hrotated, turns, hturns, hvisited, _⟩ := ih h
        refine ⟨hrotated, ⟨e, before, outcome⟩ :: turns, ?_, ?_, by simp⟩
        · rw [hturns, List.append_assoc]
          rfl
        · exact hvisited.cons (t := ⟨e, before, outcome⟩) (by simpa using hput)

theorem visited_processGroups {groups : List Group} (hgroups : ∀ group ∈ groups, group.2 ≠ [])
    (h : p.processGroups known groups g s = (.ok g', s')) : ∃ visits : List (Group × List EventTurn),
      g'.groupsRotated = g.groupsRotated + visits.length ∧ g'.turns = g.turns ++ visits.flatMap (·.2) ∧
      visits.map (·.1) <+: groups ∧ (∀ v ∈ visits, Visited v.1.2 v.2 ∧ v.2 ≠ []) ∧
      (groups ≠ [] → g.turns.length < p.maxEventsPerPoll → visits ≠ []) := by
  induction groups generalizing g s with
  | nil =>
    obtain ⟨rfl, rfl⟩ := pure_eq_ok.mp h
    exact ⟨[], rfl, by simp, by simp, by simp, fun hne => absurd rfl hne⟩
  | cons group groups ih =>
    unfold MarketEventPoll.processGroups at h
    split_ifs at h with hfull
    · obtain ⟨rfl, rfl⟩ := pure_eq_ok.mp h
      exact ⟨[], rfl, by simp, by simp, by simp, fun _ hlt => absurd hfull (by omega)⟩
    · obtain ⟨next, u, hgroup, hrest⟩ := bind_eq_ok.mp h
      obtain ⟨hrotated, turns, hturns, hvisited, hsome⟩ := visited_processGroup hgroup
      obtain ⟨hfirst, hothers⟩ := List.forall_mem_cons.mp hgroups
      obtain ⟨visits, hlater, hall, hserved, hvisits, _⟩ := ih hothers hrest
      refine ⟨(group, turns) :: visits, ?_, ?_, ?_, ?_, by simp⟩
      · rw [hlater, hrotated, List.length_cons]
        simp only
        omega
      · rw [hall, hturns, List.append_assoc]
        rfl
      · exact (List.prefix_cons_inj group).mpr hserved
      · exact List.forall_mem_cons.mpr ⟨⟨hvisited, hsome hfirst (by simpa using hfull)⟩, hvisits⟩

theorem visited_filter {visits : List (Group × List EventTurn)} {key : GroupKey}
    (hnodup : (visits.map (·.1.1)).Nodup)
    (hvisits : ∀ v ∈ visits, Visited v.1.2 v.2 ∧ ∀ e ∈ v.1.2, marketEventGroupKey e = v.1.1)
    (hevents : ∀ v ∈ visits, v.1.1 = key → v.1.2 = events) :
    Visited events ((visits.flatMap (·.2)).filter fun t => marketEventGroupKey t.event = key) := by
  have hturns : ∀ v ∈ visits, ∀ t ∈ v.2, marketEventGroupKey t.event = v.1.1 := by
    intro v hv t ht
    obtain ⟨hvisited, hkeys⟩ := hvisits v hv
    exact hkeys t.event (hvisited.order.subset (List.mem_map_of_mem ht))
  induction visits with
  | nil => exact Visited.nil events
  | cons v visits ih =>
    obtain ⟨hnew, hnodup⟩ := List.nodup_cons.mp hnodup
    obtain ⟨hfirst, hothers⟩ := List.forall_mem_cons.mp hturns
    rw [List.flatMap_cons, List.filter_append]
    by_cases hkey : v.1.1 = key
    · have hall : v.2.filter (fun t => marketEventGroupKey t.event = key) = v.2 := by
        rw [List.filter_eq_self]
        intro t ht
        rw [decide_eq_true_eq, hfirst t ht, hkey]
      have hnone : (visits.flatMap (·.2)).filter (fun t => marketEventGroupKey t.event = key) = [] := by
        rw [List.filter_eq_nil_iff]
        intro t ht hsame
        obtain ⟨w, hw, ht⟩ := List.mem_flatMap.mp ht
        rw [decide_eq_true_eq, hothers w hw t ht, ← hkey] at hsame
        exact hnew (List.mem_map.mpr ⟨w, hw, hsame⟩)
      rw [hall, hnone, List.append_nil, ← hevents v List.mem_cons_self hkey]
      exact (hvisits v List.mem_cons_self).1
    · have hnone : v.2.filter (fun t => marketEventGroupKey t.event = key) = [] := by
        rw [List.filter_eq_nil_iff]
        intro t ht hsame
        rw [decide_eq_true_eq, hfirst t ht] at hsame
        exact hkey hsame
      rw [hnone, List.nil_append]
      exact ih hnodup (fun w hw => hvisits w (List.mem_cons_of_mem v hw))
        (fun w hw => hevents w (List.mem_cons_of_mem v hw)) hothers

end Visits

section Polls

/-- A poll that looks at the events, with room for one at least, and what became of it. -/
structure PollRun where
  poll : MarketEventPoll
  tables : FairnessTables
  session : Session Db
  result : BridgePollResult
  after : FairnessTables
  final : Session Db
  ready : (poll.marketDataReady && poll.lockHeld && poll.sessionHealthy) = true
  capacity : 1 ≤ poll.maxEventsPerPoll
  ran : poll.processAfterPoll tables session = (.ok (result, after), final)

namespace PollRun

variable (run : PollRun)

def eligibleKeys : List GroupKey := FairRotation.eligibleKeys run.poll run.tables

def turnsOf (key : GroupKey) : List EventTurn :=
  run.result.turns.filter fun t => marketEventGroupKey t.event = key

def Attempts (key : GroupKey) : Prop := run.turnsOf key ≠ []

def AttemptsAt (keys : List GroupKey) (place : ℕ) : Prop := ∃ key, keys[place]? = some key ∧ run.Attempts key

end PollRun

variable {run : PollRun}

theorem visits_of_poll (run : PollRun) : ∃ (visits : List (Group × List EventTurn)) (hadDeferred : Bool),
    run.result.turns = visits.flatMap (·.2) ∧ visits.map (·.1) <+: run.poll.schedule run.tables ∧
      (∀ v ∈ visits, Visited v.1.2 v.2 ∧ v.2 ≠ []) ∧ (run.eligibleKeys ≠ [] → visits ≠ []) ∧
      run.after.cursor =
        advanceGroupRotationCursor run.tables.cursor run.eligibleKeys.length visits.length hadDeferred := by
  have hran := run.ran
  have hready := run.ready
  simp only [Bool.and_eq_true] at hready
  obtain ⟨⟨hdata, hlock⟩, hsession⟩ := hready
  unfold MarketEventPoll.processAfterPoll at hran
  simp only [hdata, hlock, hsession, Bool.not_true, Bool.or_self, Bool.false_eq_true, if_false] at hran
  obtain ⟨g, u, hgroups, hran⟩ := bind_eq_ok.mp hran
  obtain ⟨_, v, _, hran⟩ := bind_eq_ok.mp hran
  obtain ⟨hresult, _⟩ := pure_eq_ok.mp hran
  obtain ⟨hturns, hafter⟩ := Prod.mk.inj hresult
  obtain ⟨visits, hrotated, hall, hserved, hvisits, hsome⟩ :=
    visited_processGroups (fun group hgroup => (mem_schedule hgroup).2) hgroups
  have hlength : (run.poll.schedule run.tables).length = run.eligibleKeys.length := by
    rw [schedule_eq, List.length_rotate, PollRun.eligibleKeys, length_eligibleKeys]
  refine ⟨visits, g.hadDeferred, ?_, hserved, hvisits, fun hne => hsome ?_ run.capacity, ?_⟩
  · rw [← hturns, hall, List.nil_append]
  · rw [← List.length_pos_iff, hlength]
    exact List.length_pos_iff.mpr hne
  · rw [← hafter, hlength, hrotated, Nat.zero_add]

theorem visited_turnsOf (run : PollRun) (key : GroupKey) :
    Visited (groupOf (sortMarketEvents run.poll.candidates) key).2 (run.turnsOf key) := by
  obtain ⟨visits, _, hturns, hserved, hvisits, _⟩ := visits_of_poll run
  have hgroup : ∀ v ∈ visits, v.1 = groupOf (sortMarketEvents run.poll.candidates) v.1.1 := fun v hv =>
    (mem_schedule (hserved.subset (List.mem_map_of_mem hv))).1
  have hnodup : (visits.map (·.1.1)).Nodup := by
    have hkeys : ((run.poll.schedule run.tables).map (·.1)).Nodup := by
      rw [schedule_keys, List.nodup_rotate]
      exact nodup_of_keyBefore (pairwise_eligibleKeys _ _)
    have hsub := hserved.sublist.map (·.1)
    rw [List.map_map] at hsub
    exact hkeys.sublist hsub
  rw [PollRun.turnsOf, hturns]
  refine visited_filter hnodup (fun v hv => ⟨(hvisits v hv).1, fun e he => ?_⟩) fun v hv hkey => ?_
  · rw [hgroup v hv] at he
    exact (mem_groupOf.mp he).2
  · rw [hgroup v hv, hkey]

theorem round_of_poll (run : PollRun) (hne : run.eligibleKeys ≠ []) : ∃ k, 0 < k ∧
    (∀ d < k, run.AttemptsAt run.eligibleKeys ((run.tables.cursor + d) % run.eligibleKeys.length)) ∧
    run.after.cursor % run.eligibleKeys.length = (run.tables.cursor + k) % run.eligibleKeys.length := by
  obtain ⟨visits, hadDeferred, hturns, hserved, hvisits, hsome, hcursor⟩ := visits_of_poll run
  have hpos : 0 < visits.length := List.length_pos_iff.mpr (hsome hne)
  have hattempts : ∀ d < visits.length,
      run.AttemptsAt run.eligibleKeys ((run.tables.cursor + d) % run.eligibleKeys.length) := by
    intro d hd
    obtain ⟨hvisited, hturn⟩ := hvisits visits[d] (List.getElem_mem hd)
    have hgroup : (run.poll.schedule run.tables)[d]? = some visits[d].1 := by
      rw [List.prefix_iff_getElem?.mp hserved d (by rwa [List.length_map]), List.getElem_map]
    have hkey : ((run.poll.schedule run.tables).map (·.1))[d]? = some visits[d].1.1 := by
      rw [List.getElem?_map, hgroup]
      rfl
    have hlt : d < run.eligibleKeys.length := by
      have hd' := (List.getElem?_eq_some_iff.mp hkey).1
      rw [schedule_keys, List.length_rotate] at hd'
      exact hd'
    refine ⟨visits[d].1.1, ?_, ?_⟩
    · have hplace := List.getElem?_rotate (n := run.tables.cursor % run.eligibleKeys.length) hlt
      rw [schedule_keys] at hkey
      rw [← hkey, ← Nat.mod_add_mod, Nat.add_comm]
      exact hplace.symm
    · obtain ⟨t, ht⟩ := List.exists_mem_of_ne_nil _ hturn
      have hmem : visits[d].1 ∈ run.poll.schedule run.tables := List.mem_of_getElem? hgroup
      have hevent : t.event ∈ visits[d].1.2 := hvisited.order.subset (List.mem_map_of_mem ht)
      rw [(mem_schedule hmem).1] at hevent
      refine List.ne_nil_of_mem (List.mem_filter.mpr ⟨?_, decide_eq_true (mem_groupOf.mp hevent).2⟩)
      rw [hturns]
      exact List.mem_flatMap.mpr ⟨visits[d], List.getElem_mem hd, ht⟩
  have hn : run.eligibleKeys.length ≠ 0 := (List.length_pos_iff.mpr hne).ne'
  unfold advanceGroupRotationCursor at hcursor
  rw [if_neg hn, if_neg hpos.ne'] at hcursor
  split_ifs at hcursor
  · exact ⟨1, one_pos, fun d hd => hattempts d (by omega), by rw [hcursor, Nat.mod_mod]⟩
  · exact ⟨visits.length, hpos, hattempts, by rw [hcursor, Nat.mod_mod]⟩

theorem attempts_all {runs : List PollRun} {keys : List GroupKey} {key : GroupKey}
    (hconsecutive : runs.IsChain fun a b => b.tables.cursor = a.after.cursor)
    (hsame : ∀ run ∈ runs, run.eligibleKeys = keys) (hlength : keys.length ≤ runs.length) (hkey : key ∈ keys) :
    ∃ run ∈ runs, run.Attempts key := by
  have hround : ∀ run ∈ runs, ∃ k, 0 < k ∧
      (∀ d < k, run.AttemptsAt keys ((run.tables.cursor + d) % keys.length)) ∧
      run.after.cursor % keys.length = (run.tables.cursor + k) % keys.length := by
    intro run hrun
    have hne : run.eligibleKeys ≠ [] := by
      rw [hsame run hrun]
      exact List.ne_nil_of_mem hkey
    have hrounds := round_of_poll run hne
    rwa [hsame run hrun] at hrounds
  have hchain : runs.IsChain (Follows keys.length (fun run => run.tables.cursor) (PollRun.AttemptsAt · keys)) := by
    refine hconsecutive.imp_of_mem_imp fun a b ha _ hcursor => ?_
    obtain ⟨k, hk, hleft, hafter⟩ := hround a ha
    refine ⟨k, hk, hleft, ?_⟩
    rw [← hafter, ← hcursor]
  have hvisits : ∀ run ∈ runs, run.AttemptsAt keys (run.tables.cursor % keys.length) := by
    intro run hrun
    obtain ⟨k, hk, hleft, _⟩ := hround run hrun
    exact hleft 0 hk
  obtain ⟨place, hplace, rfl⟩ := List.getElem_of_mem hkey
  obtain ⟨run, hrun, key', hkey', hattempts⟩ := visits_all hchain hvisits hlength hplace
  obtain rfl : keys[place] = key' := by
    rw [List.getElem?_eq_getElem hplace] at hkey'
    exact Option.some.inj hkey'
  exact ⟨run, hrun, hattempts⟩

theorem pairwise_groupOf (candidates : List MarketEvent) (key : GroupKey) :
    (groupOf candidates key).2.Pairwise fun a b => symbolOrder a.symbol ≤ symbolOrder b.symbol := by
  have htotal : Std.Total fun a b : MarketEvent => symbolOrder a.symbol ≤ symbolOrder b.symbol :=
    ⟨fun a b => le_total _ _⟩
  have htrans : IsTrans MarketEvent fun a b => symbolOrder a.symbol ≤ symbolOrder b.symbol :=
    ⟨fun a b c => le_trans⟩
  exact List.pairwise_insertionSort _ _

/-- Any row of as many polls as there are groups attempts each of them, while the eligible groups stay the same.
In each poll a group's events come in the order of their symbols, up to one that is put off. -/
theorem rotation_fair {runs : List PollRun} {groups : Finset GroupKey}
    (hconsecutive : runs.IsChain fun a b => b.tables.cursor = a.after.cursor)
    (hconstant : ∀ run ∈ runs, ∀ key, key ∈ run.eligibleKeys ↔ key ∈ groups)
    (hlength : groups.card ≤ runs.length) :
    (∀ key ∈ groups, ∃ run ∈ runs, run.Attempts key) ∧
    ∀ run ∈ runs, ∀ key, ∃ events : List MarketEvent,
      events.Perm (run.poll.candidates.filter fun e => marketEventGroupKey e = key) ∧
      events.Pairwise (fun a b => symbolOrder a.symbol ≤ symbolOrder b.symbol) ∧
      Visited events (run.turnsOf key) := by
  constructor
  · intro key hkey
    obtain ⟨first, hfirst⟩ : ∃ first, first ∈ runs := by
      apply List.exists_mem_of_length_pos
      exact (Finset.card_pos.mpr ⟨key, hkey⟩).trans_le hlength
    have hsorted : ∀ run : PollRun, run.eligibleKeys.Pairwise KeyBefore := fun run => pairwise_eligibleKeys _ _
    have hsame : ∀ run ∈ runs, run.eligibleKeys = first.eligibleKeys := fun run hrun =>
      eq_of_keyBefore (hsorted run) (hsorted first) fun key =>
        (hconstant run hrun key).trans (hconstant first hfirst key).symm
    have hcard : first.eligibleKeys.length = groups.card := by
      rw [← List.toFinset_card_of_nodup (nodup_of_keyBefore (hsorted first))]
      congr 1
      ext key
      rw [List.mem_toFinset]
      exact hconstant first hfirst key
    exact attempts_all hconsecutive hsame (hcard.trans_le hlength) ((hconstant first hfirst key).mpr hkey)
  · intro run _ key
    refine ⟨(groupOf (sortMarketEvents run.poll.candidates) key).2, ?_, pairwise_groupOf _ key,
      visited_turnsOf run key⟩
    exact (List.perm_insertionSort _ _).trans ((List.perm_insertionSort _ _).filter _)

end Polls

section Samples

def okValue {α : Type} : (r : Except Exc α) → r.isOk = true → α
  | .ok a, _ => a

theorem eq_okValue {α : Type} {x : Except Exc α × Session Db} (h : x.1.isOk = true) :
    x = (.ok (okValue x.1 h), x.2) := by
  obtain ⟨exc | a, s⟩ := x
  · cases h
  · rfl

def pollRun (p : MarketEventPoll) (tables : FairnessTables) (session : Session Db)
    (ready : (p.marketDataReady && p.lockHeld && p.sessionHealthy) = true) (capacity : 1 ≤ p.maxEventsPerPoll)
    (h : (p.processAfterPoll tables session).1.isOk = true) : PollRun :=
  { poll := p
    tables, session, ready, capacity
    result := (okValue _ h).1
    after := (okValue _ h).2
    final := (p.processAfterPoll tables session).2
    ran := eq_okValue h }

theorem tables_pollRun {p : MarketEventPoll} {tables : FairnessTables} {session : Session Db}
    {ready : (p.marketDataReady && p.lockHeld && p.sessionHealthy) = true} {capacity : 1 ≤ p.maxEventsPerPoll}
    {h : (p.processAfterPoll tables session).1.isOk = true} :
    (pollRun p tables session ready capacity h).tables = tables := rfl

def closedPeriod (timeframe : Timeframe) : Candle :=
  { symbol := .BTC, timeframe, openTime := 19723 * day, closeTime := 19730 * day, openPrice := 100
    high := 100, low := 100, close := 100, volume := 0, isClosed := true }

def closedPeriods : CandleRepository :=
  { store := [closedPeriod .weekly, closedPeriod .monthly], keys := by decide }

def closesPoll : MarketEventPoll :=
  { detector := { symbols := [.BTC] }
    candleRepository := closedPeriods
    bridge := fun _ => { morningBridge with builder := { morningBuilder with candles := closedPeriods } }
    evaluationTime := 19754 * day
    maxEventsPerPoll := 1
    symbols_nodup := by decide
    bridge_candles := fun _ => rfl }

def firstRun : PollRun := pollRun closesPoll {} ⟨startingDb, []⟩ rfl le_rfl (by decide +kernel)

def secondRun : PollRun := pollRun closesPoll firstRun.after firstRun.final rfl le_rfl (by decide +kernel)

def closeGroups : Finset GroupKey := {⟨.weeklyClosed, 1704067200⟩, ⟨.monthlyClosed, 1704067200⟩}

theorem rotation_fair_closes : (∀ key ∈ closeGroups, ∃ run ∈ [firstRun, secondRun], run.Attempts key) ∧
    ∀ run ∈ [firstRun, secondRun], ∀ key, ∃ events : List MarketEvent,
      events.Perm (run.poll.candidates.filter fun e => marketEventGroupKey e = key) ∧
      events.Pairwise (fun a b => symbolOrder a.symbol ≤ symbolOrder b.symbol) ∧
      Visited events (run.turnsOf key) := by
  have hkeys : ∀ run ∈ [firstRun, secondRun], run.eligibleKeys =
      [⟨.weeklyClosed, 1704067200⟩, ⟨.monthlyClosed, 1704067200⟩] := by
    decide +kernel
  have htables : secondRun.tables = firstRun.after := by
    unfold secondRun
    exact tables_pollRun
  have hconsecutive : [firstRun, secondRun].IsChain fun a b => b.tables.cursor = a.after.cursor :=
    .cons_cons (congrArg (·.cursor) htables) (.singleton _)
  refine rotation_fair hconsecutive (fun run hrun key => ?_) (by decide)
  rw [hkeys run hrun]
  simp [closeGroups]

end Samples

end TradingBot.Paper.FairRotation
