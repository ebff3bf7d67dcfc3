import TradingBot.Library.Gaps
import TradingBot.Library.Grouping
import TradingBot.Market.CalendarFacts
import TradingBot.Research.Regime

namespace TradingBot.Research.RegimeTransitions

open Market.Timeframes Exceptions Library.Dictionary Library.Gaps Library.Grouping Library.Outcome
open Research.Models Research.Regime

section Labels

def PeriodId.le (p q : PeriodId) : Prop := p.year < q.year ∨ p.year = q.year ∧ p.month ≤ q.month

instance (p q : PeriodId) : Decidable (PeriodId.le p q) := inferInstanceAs (Decidable (_ ∨ _))

def PriceBar.month (bar : PriceBar) : PeriodId := periodId bar.asOf

def appendBar (grouped : Dict PeriodId (List PriceBar)) (bar : PriceBar) : Dict PeriodId (List PriceBar) :=
  grouped.set (PriceBar.month bar) ((grouped.get? (PriceBar.month bar)).getD [] ++ [bar])

def groupBars (bars : List PriceBar) : Dict PeriodId (List PriceBar) := bars.foldl appendBar {}

def labelPeriods (classifier : RegimeClassifier) (bars : List PriceBar) : List PeriodLabel :=
  let grouped := groupBars bars
  (grouped.keys.insertionSort PeriodId.le).map fun pid =>
    labelPeriod classifier pid ((grouped.get? pid).getD [])

def byPeriod (labels : List PeriodLabel) : Dict PeriodId PeriodLabel :=
  labels.foldl (fun index period => index.set period.periodId period) {}

/-- `label_days`. -/
def inheritLabels (bars : List PriceBar) (labels : List PeriodLabel) : Except Exc (List DayLabel) :=
  bars.mapM fun bar =>
    match (byPeriod labels).get? (PriceBar.month bar) with
    | none => .error (.lookupError "period")
    | some period => .ok ⟨bar.asOf, PriceBar.month bar, period.trend, period.vol, period.status⟩

end Labels

section Transitions

def TrendLabel.value : TrendLabel → String
  | .bull => "BULL"
  | .bear => "BEAR"
  | .sideways => "SIDEWAYS"
  | .insufficient => "INSUFFICIENT"

structure PeriodTransition where
  fromPeriodId : PeriodId
  toPeriodId : PeriodId
  fromTrend : TrendLabel
  toTrend : TrendLabel
  fromVol : VolLabel
  toVol : VolLabel
  transitionId : String
  trendChanged : Bool
  volChanged : Bool
deriving DecidableEq, Repr

def nextCalendarMonth (p : PeriodId) : PeriodId := if p.month = 12 then ⟨p.year + 1, 1⟩ else ⟨p.year, p.month + 1⟩

def monthsAreCalendarAdjacent (prev cur : PeriodId) : Bool := nextCalendarMonth prev = cur

def trendTransitionId (prev cur : TrendLabel) : Option String :=
  if prev = cur ∨ prev = .insufficient ∨ cur = .insufficient then none
  else if prev ∈ [TrendLabel.bull, .bear] ∧ cur = .sideways then some "TREND_TO_SIDEWAYS"
  else if prev = .sideways ∧ cur ∈ [TrendLabel.bull, .bear] then some "SIDEWAYS_TO_TREND"
  else some (TrendLabel.value prev ++ "_TO_" ++ TrendLabel.value cur)

def volTransitionId : VolLabel → VolLabel → Option String
  | .lowVol, .highVol => some "LOW_TO_HIGH_VOL"
  | .highVol, .lowVol => some "HIGH_TO_LOW_VOL"
  | .lowVol, .normalVol => some "LOW_TO_NORMAL_VOL"
  | .normalVol, .lowVol => some "NORMAL_TO_LOW_VOL"
  | .normalVol, .highVol => some "NORMAL_TO_HIGH_VOL"
  | .highVol, .normalVol => some "HIGH_TO_NORMAL_VOL"
  | _, _ => none

def directedTransitionId (prev cur : PeriodLabel) : Option String :=
  if prev.status ≠ .ok ∨ cur.status ≠ .ok then none
  else (trendTransitionId prev.trend cur.trend).or (volTransitionId prev.vol cur.vol)

/-- The transition between two labels that follow each other. -/
def periodTransition (requireCalendarAdjacency : Bool) (prev cur : PeriodLabel) : Option PeriodTransition :=
  if requireCalendarAdjacency && !monthsAreCalendarAdjacent prev.periodId cur.periodId then none
  else (directedTransitionId prev cur).map fun tid =>
    { fromPeriodId := prev.periodId
      toPeriodId := cur.periodId
      fromTrend := prev.trend
      toTrend := cur.trend
      fromVol := prev.vol
      toVol := cur.vol
      transitionId := tid
      trendChanged := prev.trend ≠ cur.trend
      volChanged := prev.vol ≠ cur.vol }

def detectPeriodTransitions (labels : List PeriodLabel) (requireCalendarAdjacency : Bool := true) :
    List PeriodTransition :=
  (labels.zip labels.tail).filterMap fun (prev, cur) => periodTransition requireCalendarAdjacency prev cur

end Transitions

section DayEvents

inductive EventLabel
  | transitionIn | transitionOut | stableRegime | insufficient
deriving DecidableEq, Repr

structure DayEventLabel where
  asOf : ℤ
  periodId : PeriodId
  event : EventLabel
  transitionId : Option String
deriving DecidableEq, Repr

def transitionByBoundary (transitions : List PeriodTransition) : Dict (PeriodId × PeriodId) String :=
  transitions.foldl (fun index t => index.set (t.fromPeriodId, t.toPeriodId) t.transitionId) {}

def idsOut (boundary : Dict (PeriodId × PeriodId) String) : Dict PeriodId String :=
  boundary.entries.foldl (fun index e => index.set e.1.1 e.2) {}

/-- `tid_in`: the ids by the months they lead into. -/
def idsIn (boundary : Dict (PeriodId × PeriodId) String) : Dict PeriodId String :=
  boundary.entries.foldl (fun index e => index.set e.1.2 e.2) {}

/-- The event of the bar at a place among the bars of its month. -/
def eventAt (window : ℤ) (idsOut idsIn : Dict PeriodId String) (pid : PeriodId) (idx n : ℕ) :
    EventLabel × Option String :=
  let isOut := pid ∈ idsOut.keys ∧ max 0 (n - window) ≤ idx
  let isIn := pid ∈ idsIn.keys ∧ idx < window
  if isIn ∧ isOut then
    -- a month shorter than two windows is cut in the middle
    if 2 * idx < n then (.transitionIn, idsIn.get? pid) else (.transitionOut, idsOut.get? pid)
  else if isIn then (.transitionIn, idsIn.get? pid)
  else if isOut then (.transitionOut, idsOut.get? pid)
  else (.stableRegime, none)

def dayEvent (window : ℤ) (grouped : Dict PeriodId (List PriceBar)) (idsOut idsIn : Dict PeriodId String)
    (bar : PriceBar) (dayLabel : DayLabel) : Except Exc DayEventLabel :=
  if dayLabel.status ≠ .ok then .ok ⟨bar.asOf, dayLabel.periodId, .insufficient, none⟩
  else
    match grouped.get? dayLabel.periodId with
    | none => .error (.lookupError "period")
    | some periodBars =>
      match periodBars.findIdx? (·.asOf = bar.asOf) with
      | none => .error (.runtimeError "StopIteration")
      | some idx =>
        let event := eventAt window idsOut idsIn dayLabel.periodId idx periodBars.length
        .ok ⟨bar.asOf, dayLabel.periodId, event.1, event.2⟩

def labelDayEvents (bars : List PriceBar) (dayLabels : List DayLabel) (labels : List PeriodLabel)
    (classifier : RegimeClassifier) (requireCalendarAdjacency : Bool := true) : Except Exc (List DayEventLabel) :=
  if bars.length ≠ dayLabels.length then .error (.valueError "bars and day_labels length mismatch")
  else
    let boundary := transitionByBoundary (detectPeriodTransitions labels requireCalendarAdjacency)
    (bars.zip dayLabels).mapM fun (bar, dayLabel) =>
      dayEvent classifier.transitionWindowBars (groupBars bars) (idsOut boundary) (idsIn boundary) bar dayLabel

structure RegimeClassification where
  periodLabels : List PeriodLabel
  dayLabels : List DayLabel
  transitions : List PeriodTransition
  dayEvents : List DayEventLabel

def classifySeries (classifier : RegimeClassifier) (bars : List PriceBar) : Except Exc RegimeClassification := do
  if bars = [] then .error (.runtimeError "empty price series: fail-closed (no regime labels)")
  else
    let ordered := bars.insertionSort fun a b => a.asOf ≤ b.asOf
    let periods := labelPeriods classifier ordered
    let days ← inheritLabels ordered periods
    let adjacency := classifier.requireCalendarAdjacency
    let events ← labelDayEvents ordered days periods classifier adjacency
    pure ⟨periods, days, detectPeriodTransitions periods adjacency, events⟩

end DayEvents

section Months

variable {classifier : RegimeClassifier} {bars : List PriceBar} {bar : PriceBar} {pid p q r : PeriodId}

def monthBars (bars : List PriceBar) (pid : PeriodId) : List PriceBar := group PriceBar.month bars pid

theorem groupBars_get? (bars : List PriceBar) (pid : PeriodId) :
    (groupBars bars).get? pid = if monthBars bars pid = [] then none else some (monthBars bars pid) := by
  unfold groupBars
  induction bars using List.reverseRecOn with
  | nil => rfl
  | append_singleton bars bar ih =>
    rw [List.foldl_append, List.foldl_cons, List.foldl_nil, appendBar, Dict.get?_set, monthBars, group_append]
    by_cases hpid : pid = PriceBar.month bar
    · have hone : group PriceBar.month [bar] pid = [bar] := by simp [group, hpid]
      have hne : group PriceBar.month bars pid ++ [bar] ≠ [] := by simp
      rw [if_pos hpid, ← hpid, ih, hone, if_neg hne, monthBars]
      by_cases hempty : group PriceBar.month bars pid = []
      · rw [if_pos hempty, Option.getD_none, hempty]
      · rw [if_neg hempty, Option.getD_some]
    · have hnone : group PriceBar.month [bar] pid = [] := by simp [group, Ne.symm hpid]
      rw [if_neg hpid, ih, hnone, List.append_nil, monthBars]

theorem groupBars_getD (bars : List PriceBar) (pid : PeriodId) :
    ((groupBars bars).get? pid).getD [] = monthBars bars pid := by
  rw [groupBars_get?]
  by_cases hempty : monthBars bars pid = []
  · rw [if_pos hempty, Option.getD_none, hempty]
  · rw [if_neg hempty, Option.getD_some]

theorem mem_groupBars_keys : pid ∈ (groupBars bars).keys ↔ monthBars bars pid ≠ [] := by
  rw [← Dict.get?_isSome_iff, groupBars_get?]
  by_cases hempty : monthBars bars pid = []
  · simp [hempty]
  · simp [hempty]

theorem monthBars_ne_nil : monthBars bars pid ≠ [] ↔ ∃ bar ∈ bars, PriceBar.month bar = pid := by
  rw [monthBars, group, ne_eq, List.filter_eq_nil_iff]
  simp

theorem month_bounds (h : monthBars bars pid ≠ []) : 1 ≤ pid.month ∧ pid.month ≤ 12 := by
  obtain ⟨bar, _, rfl⟩ := monthBars_ne_nil.mp h
  exact Market.CalendarFacts.civilDate_month bar.asOf

theorem le_total (p q : PeriodId) : PeriodId.le p q ∨ PeriodId.le q p := by
  unfold PeriodId.le
  omega

theorem le_trans (p q r : PeriodId) (h : PeriodId.le p q) (h' : PeriodId.le q r) : PeriodId.le p r := by
  unfold PeriodId.le at *
  omega

theorem le_antisymm (h : PeriodId.le p q) (h' : PeriodId.le q p) : p = q := by
  obtain ⟨year, month⟩ := p
  obtain ⟨year', month'⟩ := q
  simp only [PeriodId.le] at h h'
  rw [PeriodId.mk.injEq]
  omega

def monthLabel (classifier : RegimeClassifier) (pid : PeriodId) (bars : List PriceBar) : Option PeriodLabel :=
  if bars = [] then none else some (labelPeriod classifier pid bars)

theorem labelPeriod_periodId (classifier : RegimeClassifier) (pid : PeriodId) (bars : List PriceBar) :
    (labelPeriod classifier pid bars).periodId = pid := by
  unfold labelPeriod
  split_ifs
  · rfl
  · cases bars.head? with
    | none => rfl
    | some first =>
      cases bars.getLast? with
      | none => rfl
      | some last =>
        dsimp only
        split_ifs
        · rfl
        · cases populationVariance (dailyReturns (bars.map (·.close))) with
          | none => rfl
          | some variance => rfl

theorem mem_labelPeriods {label : PeriodLabel} : label ∈ labelPeriods classifier bars ↔
    monthLabel classifier label.periodId (monthBars bars label.periodId) = some label := by
  simp only [labelPeriods, List.mem_map, List.mem_insertionSort, groupBars_getD, monthLabel]
  constructor
  · rintro ⟨pid, hpid, rfl⟩
    rw [labelPeriod_periodId, if_neg (mem_groupBars_keys.mp hpid)]
  · intro h
    by_cases hempty : monthBars bars label.periodId = []
    · rw [if_pos hempty] at h
      cases h
    · rw [if_neg hempty] at h
      exact ⟨label.periodId, mem_groupBars_keys.mpr hempty, Option.some.inj h⟩

def Before (a b : PeriodLabel) : Prop := PeriodId.le a.periodId b.periodId ∧ a.periodId ≠ b.periodId

theorem labelPeriods_pairwise (classifier : RegimeClassifier) (bars : List PriceBar) :
    (labelPeriods classifier bars).Pairwise Before := by
  have htotal : Std.Total PeriodId.le := ⟨le_total⟩
  have htrans : IsTrans PeriodId PeriodId.le := ⟨le_trans⟩
  have hsorted := List.pairwise_insertionSort PeriodId.le (groupBars bars).keys
  have hnodup := (List.perm_insertionSort PeriodId.le (groupBars bars).keys).nodup_iff.mpr (Dict.keys_nodup _)
  rw [labelPeriods, List.pairwise_map]
  refine (hsorted.and hnodup).imp fun {p q} h => ?_
  rw [Before, labelPeriod_periodId, labelPeriod_periodId]
  exact h

theorem before_asymm (a b : PeriodLabel) (h : Before a b) : ¬ Before b a := fun h' => h.2 (le_antisymm h.1 h'.1)

theorem not_between (hp : 1 ≤ p.month ∧ p.month ≤ 12) (hr : 1 ≤ r.month ∧ r.month ≤ 12) (hpr : PeriodId.le p r)
    (hne : p ≠ r) (hle : PeriodId.le r (nextCalendarMonth p)) : r = nextCalendarMonth p := by
  obtain ⟨year, month⟩ := p
  obtain ⟨year', month'⟩ := r
  have hne : ¬ (year = year' ∧ month = month') := fun h => hne (by rw [h.1, h.2])
  simp only [PeriodId.le, nextCalendarMonth] at *
  split_ifs at hle ⊢ <;> rw [PeriodId.mk.injEq] <;> simp only at hle <;> omega

theorem le_next (p : PeriodId) : PeriodId.le p (nextCalendarMonth p) ∧ p ≠ nextCalendarMonth p := by
  obtain ⟨year, month⟩ := p
  simp only [PeriodId.le, nextCalendarMonth]
  split_ifs
  · simp
  · simp

end Months

section Runs

variable {classifier : RegimeClassifier} {bars : List PriceBar} {bar : PriceBar} {pid : PeriodId}
  {labels : List PeriodLabel} {prev cur : PeriodLabel} {t : PeriodTransition} {transitions : List PeriodTransition}
  {id : String}

theorem periodTransition_eq_some (h : periodTransition true prev cur = some t) :
    t.fromPeriodId = prev.periodId ∧ t.toPeriodId = cur.periodId ∧
      nextCalendarMonth prev.periodId = cur.periodId ∧ prev.status = .ok ∧ cur.status = .ok := by
  simp only [periodTransition, Bool.true_and, monthsAreCalendarAdjacent] at h
  by_cases hadjacent : nextCalendarMonth prev.periodId = cur.periodId
  · simp only [hadjacent, decide_true, Bool.not_true, Bool.false_eq_true, if_false, Option.map_eq_some_iff] at h
    obtain ⟨tid, htid, rfl⟩ := h
    simp only [directedTransitionId] at htid
    by_cases hstatus : prev.status ≠ .ok ∨ cur.status ≠ .ok
    · rw [if_pos hstatus] at htid
      cases htid
    · rw [not_or, not_not, not_not] at hstatus
      exact ⟨rfl, rfl, hadjacent, hstatus.1, hstatus.2⟩
  · simp [hadjacent] at h

theorem labelled_month (h : prev ∈ labelPeriods classifier bars) : 1 ≤ prev.periodId.month ∧ prev.periodId.month ≤ 12 := by
  rw [mem_labelPeriods, monthLabel] at h
  by_cases hempty : monthBars bars prev.periodId = []
  · rw [if_pos hempty] at h
    cases h
  · exact month_bounds hempty

theorem mem_detectPeriodTransitions : t ∈ detectPeriodTransitions (labelPeriods classifier bars) ↔
    ∃ prev ∈ labelPeriods classifier bars, ∃ cur ∈ labelPeriods classifier bars,
      periodTransition true prev cur = some t := by
  simp only [detectPeriodTransitions, List.mem_filterMap, Prod.exists,
    mem_zip_tail before_asymm (labelPeriods_pairwise classifier bars)]
  constructor
  · rintro ⟨prev, cur, ⟨hprev, hcur, _⟩, ht⟩
    exact ⟨prev, hprev, cur, hcur, ht⟩
  · rintro ⟨prev, hprev, cur, hcur, ht⟩
    obtain ⟨_, _, hnext, _, _⟩ := periodTransition_eq_some ht
    refine ⟨prev, cur, ⟨hprev, hcur, ?_, ?_⟩, ht⟩
    · rw [Before, ← hnext]
      exact le_next prev.periodId
    · rintro other hother ⟨hle, hne⟩ ⟨hle', hne'⟩
      rw [← hnext] at hle' hne'
      exact hne' (not_between (labelled_month hprev) (labelled_month hother) hle hne hle')

theorem ids_get? {f : PeriodId × PeriodId → PeriodId}
    (h : ((transitionByBoundary transitions).entries.foldl (fun index e => index.set (f e.1) e.2)
      ({} : Dict PeriodId String)).get? pid = some id) :
    ∃ t ∈ transitions, f (t.fromPeriodId, t.toPeriodId) = pid ∧ t.transitionId = id := by
  cases Dict.get?_foldl_set h with
  | inr hempty => cases hempty
  | inl hentry =>
    obtain ⟨e, he, hpid, hid⟩ := hentry
    cases Dict.get?_foldl_set (Dict.get?_eq_some_iff.mpr he) with
    | inr hempty => cases hempty
    | inl htransition =>
      obtain ⟨t, ht, hkey, hvalue⟩ := htransition
      exact ⟨t, ht, (congrArg f hkey).trans hpid, hvalue.trans hid⟩

/-- The place of a date among sorted bars is the number of bars before it. -/
theorem findIdx?_eq_some {l : List PriceBar} {date : ℤ} {idx : ℕ} (hsorted : l.Pairwise fun a b => a.asOf ≤ b.asOf)
    (h : l.findIdx? (·.asOf = date) = some idx) :
    l.countP (·.asOf < date) = idx ∧ l.countP (date ≤ ·.asOf) = l.length - idx := by
  induction l generalizing idx with
  | nil => cases h
  | cons first l ih =>
    obtain ⟨hfirst, hrest⟩ := List.pairwise_cons.mp hsorted
    rw [List.findIdx?_cons] at h
    by_cases hdate : first.asOf = date
    · simp only [hdate, decide_true, if_true, Option.some.injEq] at h
      have hlater : ∀ b ∈ first :: l, date ≤ b.asOf := List.forall_mem_cons.mpr ⟨hdate.ge, fun b hb => hdate ▸ hfirst b hb⟩
      have hnone : (first :: l).countP (·.asOf < date) = 0 :=
        List.countP_eq_zero.mpr fun b hb => by simpa using hlater b hb
      have hall : (first :: l).countP (date ≤ ·.asOf) = (first :: l).length :=
        List.countP_eq_length.mpr fun b hb => by simpa using hlater b hb
      rw [hnone, hall, ← h]
      exact ⟨rfl, rfl⟩
    · simp only [hdate, decide_false, Bool.false_eq_true, if_false, Option.map_eq_some_iff] at h
      obtain ⟨rest, hfound, rfl⟩ := h
      obtain ⟨hbefore, hafter⟩ := ih hrest hfound
      obtain ⟨b, hb, hbdate⟩ : ∃ b ∈ l, b.asOf = date := by
        obtain ⟨hi, hat, _⟩ := List.findIdx?_eq_some_iff_getElem.mp hfound
        exact ⟨l[rest], List.getElem_mem hi, by simpa using hat⟩
      have hlt : first.asOf < date := lt_of_le_of_ne (hbdate ▸ hfirst b hb) hdate
      have hnle : ¬ date ≤ first.asOf := not_le.mpr hlt
      simp [hlt, hnle, hbefore, hafter]

theorem byPeriod_get? (h : prev ∈ labelPeriods classifier bars) :
    (byPeriod (labelPeriods classifier bars)).get? prev.periodId = some prev := by
  have hnodup : ((labelPeriods classifier bars).map PeriodLabel.periodId).Nodup :=
    List.pairwise_map.mpr ((labelPeriods_pairwise classifier bars).imp fun hbefore => hbefore.2)
  exact (Dict.get?_index hnodup).mpr ⟨h, rfl⟩

theorem inheritLabels_eq (classifier : RegimeClassifier) (bars : List PriceBar) :
    inheritLabels bars (labelPeriods classifier bars) = .ok (labelDays classifier bars) := by
  apply mapM_ok
  intro bar hbar
  have hne : monthBars bars (PriceBar.month bar) ≠ [] := monthBars_ne_nil.mpr ⟨bar, hbar, rfl⟩
  have hlabel : labelPeriod classifier (PriceBar.month bar) (monthBars bars (PriceBar.month bar)) ∈
      labelPeriods classifier bars := by
    rw [mem_labelPeriods, labelPeriod_periodId, monthLabel, if_neg hne]
  have hget := byPeriod_get? hlabel
  rw [labelPeriod_periodId] at hget
  rw [hget]
  rfl

end Runs

section Events

variable {window : ℤ} {tidOut tidIn : Dict PeriodId String} {pid : PeriodId} {idx n : ℕ} {id : Option String}

theorem eventAt_in (h : eventAt window tidOut tidIn pid idx n = (.transitionIn, id)) :
    id = tidIn.get? pid ∧ pid ∈ tidIn.keys ∧ idx < window := by
  simp only [eventAt] at h
  split_ifs at h with hboth _ hin <;> cases h
  · exact ⟨rfl, hboth.1⟩
  · exact ⟨rfl, hin⟩

theorem eventAt_out (h : eventAt window tidOut tidIn pid idx n = (.transitionOut, id)) :
    id = tidOut.get? pid ∧ pid ∈ tidOut.keys ∧ max 0 (n - window) ≤ idx := by
  simp only [eventAt] at h
  split_ifs at h with hboth _ _ hout <;> cases h
  · exact ⟨rfl, hboth.2⟩
  · exact ⟨rfl, hout⟩

/-- What the event of a bar says of its month: it leads into it or out of it by a transition, and the bar is among its
first or its last ones. -/
structure EventOf (window : ℤ) (bars : List PriceBar) (transitions : List PeriodTransition) (bar : PriceBar)
    (event : DayEventLabel) : Prop where
  asOf : event.asOf = bar.asOf
  periodId : event.periodId = PriceBar.month bar
  into : event.event = .transitionIn →
    (∃ t ∈ transitions, t.toPeriodId = PriceBar.month bar ∧ event.transitionId = some t.transitionId) ∧
      (monthBars bars (PriceBar.month bar)).countP (·.asOf < bar.asOf) < window
  out : event.event = .transitionOut →
    (∃ t ∈ transitions, t.fromPeriodId = PriceBar.month bar ∧ event.transitionId = some t.transitionId) ∧
      (monthBars bars (PriceBar.month bar)).countP (bar.asOf ≤ ·.asOf) ≤ window

variable {bars : List PriceBar} {bar : PriceBar} {transitions : List PeriodTransition} {event : DayEventLabel}
  {dayLabel : DayLabel}

theorem eventOf_dayEvent (hsorted : bars.Pairwise fun a b => a.asOf ≤ b.asOf) (hday : dayLabel.periodId = PriceBar.month bar)
    (h : dayEvent window (groupBars bars) (idsOut (transitionByBoundary transitions))
      (idsIn (transitionByBoundary transitions)) bar dayLabel = .ok event) :
    EventOf window bars transitions bar event := by
  simp only [dayEvent] at h
  by_cases hstatus : dayLabel.status ≠ .ok
  · rw [if_pos hstatus] at h
    cases h
    refine ⟨rfl, hday, ?_, ?_⟩
    · intro hin
      cases hin
    · intro hout
      cases hout
  · rw [if_neg hstatus, hday, groupBars_get?] at h
    by_cases hempty : monthBars bars (PriceBar.month bar) = []
    · simp only [hempty, if_true] at h
      cases h
    · simp only [hempty, if_false] at h
      cases hidx : (monthBars bars (PriceBar.month bar)).findIdx? (·.asOf = bar.asOf) with
      | none =>
        simp only [hidx] at h
        cases h
      | some idx =>
        simp only [hidx] at h
        cases h
        have hmonth : (monthBars bars (PriceBar.month bar)).Pairwise fun a b => a.asOf ≤ b.asOf := hsorted.filter _
        obtain ⟨hbefore, hafter⟩ := findIdx?_eq_some hmonth hidx
        refine ⟨rfl, rfl, ?_, ?_⟩
        · intro hin
          obtain ⟨hid, hkey, hwindow⟩ := eventAt_in (Prod.ext hin rfl)
          obtain ⟨id, hget⟩ := Option.isSome_iff_exists.mp (Dict.get?_isSome_iff.mpr hkey)
          obtain ⟨t, ht, hto, htid⟩ := ids_get? (f := Prod.snd) hget
          rw [hbefore]
          exact ⟨⟨t, ht, hto, hid.trans (hget.trans (congrArg some htid.symm))⟩, hwindow⟩
        · intro hout
          obtain ⟨hid, hkey, hwindow⟩ := eventAt_out (Prod.ext hout rfl)
          obtain ⟨id, hget⟩ := Option.isSome_iff_exists.mp (Dict.get?_isSome_iff.mpr hkey)
          obtain ⟨t, ht, hfrom, htid⟩ := ids_get? (f := Prod.fst) hget
          obtain ⟨hplace, _⟩ := List.findIdx?_eq_some_iff_getElem.mp hidx
          rw [hafter]
          refine ⟨⟨t, ht, hfrom, hid.trans (hget.trans (congrArg some htid.symm))⟩, ?_⟩
          omega

theorem dayEvent_returns (hbar : bar ∈ bars) (hday : dayLabel.periodId = PriceBar.month bar) :
    Returns (dayEvent window (groupBars bars) tidOut tidIn bar dayLabel) := by
  have hne : monthBars bars (PriceBar.month bar) ≠ [] := monthBars_ne_nil.mpr ⟨bar, hbar, rfl⟩
  have hmem : bar ∈ monthBars bars (PriceBar.month bar) := (mem_group _).mpr ⟨hbar, rfl⟩
  have hidx := List.findIdx?_eq_some_of_exists (p := fun b : PriceBar => decide (b.asOf = bar.asOf))
    ⟨bar, hmem, decide_eq_true rfl⟩
  by_cases hstatus : dayLabel.status ≠ .ok
  · rw [dayEvent, if_pos hstatus]
    exact returns_ok _
  · simp only [dayEvent, if_neg hstatus, hday, groupBars_get?, if_neg hne, hidx]
    exact returns_ok _

theorem labelDayEvents_sound (classifier : RegimeClassifier) (labels : List PeriodLabel) (adjacency : Bool)
    (hsorted : bars.Pairwise fun a b => a.asOf ≤ b.asOf) :
    ∃ events, labelDayEvents bars (labelDays classifier bars) labels classifier adjacency = .ok events ∧
      List.Forall₂ (EventOf classifier.transitionWindowBars bars (detectPeriodTransitions labels adjacency)) bars
        events := by
  have hlength : ¬ bars.length ≠ (labelDays classifier bars).length := by simp [labelDays]
  simp only [labelDayEvents, if_neg hlength]
  generalize hdays : (fun bar : PriceBar =>
    let pid := periodId bar.asOf
    let period := labelPeriod classifier pid (bars.filter fun b => periodId b.asOf = pid)
    ({ asOf := bar.asOf, periodId := pid, trend := period.trend, vol := period.vol, status := period.status } : DayLabel))
    = inherited
  have hperiod : ∀ bar, (inherited bar).periodId = PriceBar.month bar := by
    intro bar
    rw [← hdays]
    rfl
  have hzip : bars.zip (labelDays classifier bars) = bars.map fun bar => (bar, inherited bar) := by
    rw [labelDays, hdays, List.zip_eq_zipWith, List.zipWith_map_right, List.zipWith_self]
  rw [hzip]
  obtain ⟨events, hevents⟩ : Returns ((bars.map fun bar => (bar, inherited bar)).mapM fun (bar, dayLabel) =>
      dayEvent classifier.transitionWindowBars (groupBars bars)
        (idsOut (transitionByBoundary (detectPeriodTransitions labels adjacency)))
        (idsIn (transitionByBoundary (detectPeriodTransitions labels adjacency))) bar dayLabel) := by
    apply returns_mapM
    intro pair hpair
    obtain ⟨bar, hbar, rfl⟩ := List.mem_map.mp hpair
    exact dayEvent_returns hbar (hperiod bar)
  refine ⟨events, hevents, ?_⟩
  rw [mapM_eq_ok_iff, List.forall₂_map_left_iff] at hevents
  exact hevents.imp fun bar event h => eventOf_dayEvent hsorted (hperiod bar) h

end Events

section Soundness

def ordered (bars : List PriceBar) : List PriceBar := bars.insertionSort fun a b => a.asOf ≤ b.asOf

structure Sound (classifier : RegimeClassifier) (bars : List PriceBar) (result : RegimeClassification) : Prop where
  /-- A month's label is that of its own bars alone. -/
  labels : ∀ label, label ∈ result.periodLabels ↔
    monthLabel classifier label.periodId (ordered (monthBars bars label.periodId)) = some label
  oneLabel : result.periodLabels.Pairwise Before
  /-- A transition is that of two months that follow each other in the calendar, both labelled. -/
  transitions : ∀ t, t ∈ result.transitions ↔ ∃ prev cur,
    monthLabel classifier t.fromPeriodId (ordered (monthBars bars t.fromPeriodId)) = some prev ∧
      monthLabel classifier t.toPeriodId (ordered (monthBars bars t.toPeriodId)) = some cur ∧
      nextCalendarMonth t.fromPeriodId = t.toPeriodId ∧ prev.status = .ok ∧ cur.status = .ok ∧
      periodTransition true prev cur = some t
  /-- Each bar has one event. -/
  events : List.Forall₂ (EventOf classifier.transitionWindowBars bars result.transitions) (ordered bars) result.dayEvents

variable {classifier : RegimeClassifier} {bars : List PriceBar}

theorem monthBars_ordered (bars : List PriceBar) (pid : PeriodId) :
    monthBars (ordered bars) pid = ordered (monthBars bars pid) := by
  have htotal : ∀ a b : PriceBar, a.asOf ≤ b.asOf ∨ b.asOf ≤ a.asOf := fun a b => Int.le_total _ _
  have htrans : ∀ a b c : PriceBar, a.asOf ≤ b.asOf → b.asOf ≤ c.asOf → a.asOf ≤ c.asOf := fun _ _ _ => Int.le_trans
  exact group_insertionSort htotal htrans pid

theorem labels_ordered {label : PeriodLabel} : label ∈ labelPeriods classifier (ordered bars) ↔
    monthLabel classifier label.periodId (ordered (monthBars bars label.periodId)) = some label := by
  rw [mem_labelPeriods, monthBars_ordered]

theorem transitions_ordered {t : PeriodTransition} :
    t ∈ detectPeriodTransitions (labelPeriods classifier (ordered bars)) ↔ ∃ prev cur,
      monthLabel classifier t.fromPeriodId (ordered (monthBars bars t.fromPeriodId)) = some prev ∧
        monthLabel classifier t.toPeriodId (ordered (monthBars bars t.toPeriodId)) = some cur ∧
        nextCalendarMonth t.fromPeriodId = t.toPeriodId ∧ prev.status = .ok ∧ cur.status = .ok ∧
        periodTransition true prev cur = some t := by
  simp only [mem_detectPeriodTransitions, labels_ordered]
  constructor
  · rintro ⟨prev, hprev, cur, hcur, ht⟩
    obtain ⟨hfrom, hto, hnext, hok, hok'⟩ := periodTransition_eq_some ht
    rw [← hfrom] at hprev hnext
    rw [← hto] at hcur hnext
    exact ⟨prev, cur, hprev, hcur, hnext, hok, hok', ht⟩
  · rintro ⟨prev, cur, hprev, hcur, _, _, _, ht⟩
    obtain ⟨hfrom, hto, _, _, _⟩ := periodTransition_eq_some ht
    rw [hfrom] at hprev
    rw [hto] at hcur
    exact ⟨prev, hprev, cur, hcur, ht⟩

theorem EventOf.of_ordered {window : ℤ} {transitions : List PeriodTransition} {bar : PriceBar} {event : DayEventLabel}
    (h : EventOf window (ordered bars) transitions bar event) : EventOf window bars transitions bar event := by
  obtain ⟨hasOf, hperiod, hin, hout⟩ := h
  have hperm := List.perm_insertionSort (fun a b : PriceBar => a.asOf ≤ b.asOf) (monthBars bars (PriceBar.month bar))
  rw [monthBars_ordered, ordered, hperm.countP_eq] at hin hout
  exact ⟨hasOf, hperiod, hin, hout⟩

theorem ordered_pairwise (bars : List PriceBar) : (ordered bars).Pairwise fun a b => a.asOf ≤ b.asOf := by
  have htotal : Std.Total fun a b : PriceBar => a.asOf ≤ b.asOf := ⟨fun a b => Int.le_total _ _⟩
  have htrans : IsTrans PriceBar fun a b => a.asOf ≤ b.asOf := ⟨fun _ _ _ => Int.le_trans⟩
  exact List.pairwise_insertionSort _ _

theorem classifySeries_eq_ok (hbars : bars ≠ []) {events : List DayEventLabel}
    (h : labelDayEvents (ordered bars) (labelDays classifier (ordered bars)) (labelPeriods classifier (ordered bars))
      classifier classifier.requireCalendarAdjacency = .ok events) :
    classifySeries classifier bars = .ok ⟨labelPeriods classifier (ordered bars), labelDays classifier (ordered bars),
      detectPeriodTransitions (labelPeriods classifier (ordered bars)) classifier.requireCalendarAdjacency, events⟩ := by
  rw [classifySeries, if_neg hbars]
  exact except_bind_eq_ok.mpr
    ⟨_, inheritLabels_eq classifier (ordered bars), except_bind_eq_ok.mpr ⟨events, h, rfl⟩⟩

/-- The regimes of a series of closes. Transitions are those of adjacent months, which is the default. -/
theorem classifySeries_sound (classifier : RegimeClassifier) (bars : List PriceBar) (hbars : bars ≠ []) :
    ∃ result, classifySeries { classifier with requireCalendarAdjacency := true } bars = .ok result ∧
      Sound { classifier with requireCalendarAdjacency := true } bars result := by
  generalize hadjacent : { classifier with requireCalendarAdjacency := true } = adjacent
  have hadjacency : adjacent.requireCalendarAdjacency = true := by rw [← hadjacent]
  obtain ⟨events, hevents, hsound⟩ :=
    labelDayEvents_sound adjacent (labelPeriods adjacent (ordered bars)) true (ordered_pairwise bars)
  rw [← hadjacency] at hevents hsound
  refine ⟨_, classifySeries_eq_ok hbars hevents, ?_⟩
  rw [hadjacency] at hsound ⊢
  exact
    { labels := fun label => labels_ordered
      oneLabel := labelPeriods_pairwise adjacent (ordered bars)
      transitions := fun t => transitions_ordered
      events := hsound.imp fun _ _ h => h.of_ordered }

def twoMonths : List PriceBar :=
  [⟨19723, 100⟩, ⟨19724, 101⟩, ⟨19725, 103⟩, ⟨19726, 106⟩, ⟨19727, 110⟩,
    ⟨19754, 110⟩, ⟨19755, 108⟩, ⟨19756, 105⟩, ⟨19757, 101⟩, ⟨19758, 95⟩]

theorem classifySeries_sound_twoMonths :
    ∃ result, classifySeries { transitionWindowBars := 2 } twoMonths = .ok result ∧
      result.transitions.map (·.transitionId) = ["BULL_TO_BEAR"] ∧
      result.dayEvents.map (·.event) =
        [.stableRegime, .stableRegime, .stableRegime, .transitionOut, .transitionOut,
          .transitionIn, .transitionIn, .stableRegime, .stableRegime, .stableRegime] ∧
      Sound { transitionWindowBars := 2 } twoMonths result := by
  obtain ⟨result, hresult, hsound⟩ := classifySeries_sound { transitionWindowBars := 2 } twoMonths (by decide)
  have hrun : (classifySeries { transitionWindowBars := 2 } twoMonths).map
      (fun result => (result.transitions.map (·.transitionId), result.dayEvents.map (·.event))) =
      .ok (["BULL_TO_BEAR"], [.stableRegime, .stableRegime, .stableRegime, .transitionOut, .transitionOut,
        .transitionIn, .transitionIn, .stableRegime, .stableRegime, .stableRegime]) := by decide +kernel
  have hsame : classifySeries { transitionWindowBars := 2 } twoMonths = .ok result := hresult
  rw [hsame] at hrun
  have hpair := Prod.mk.inj (Except.ok.inj hrun)
  exact ⟨result, hsame, hpair.1, hpair.2, hsound⟩

end Soundness

end TradingBot.Research.RegimeTransitions
