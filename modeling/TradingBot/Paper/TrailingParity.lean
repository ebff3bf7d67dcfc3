import TradingBot.Paper.PositionTable

namespace TradingBot.Paper.TrailingParity

open Market.Models Strategy.Models Strategy.Stops Exceptions Constraints Backtester.Lifecycle
open Backtester.Engine Library.Transaction Library.Truncation
open Paper.Models Paper.Repository Paper.Stops Paper.PositionTable

/-- The stop a highest close and an ATR lead to, cut to the tick. -/
def candidate (tick mult highest atr : Decimal) : Decimal := toStep tick (highest - mult * atr)

section Settled

variable {tick stopInitial stop : Decimal}

/-- A stop as the trailing rules leave it: not below the initial stop, and on the tick unless it
still is the initial stop. -/
structure Settled (tick stopInitial stop : Decimal) : Prop where
  initial_le : stopInitial ≤ stop
  toStep_le : toStep tick stop ≤ stop
  onTick : stop = stopInitial ∨ toStep tick stop = stop

theorem settled_raisedStop (htick : 0 < tick) (x : Decimal) (hx : stopInitial ≤ x) :
    Settled tick stopInitial (max stopInitial (toStep tick x)) := by
  rcases le_total stopInitial (toStep tick x) with h | h
  · rw [max_eq_right h]
    exact ⟨h, (toStep_toStep htick x).le, .inr (toStep_toStep htick x)⟩
  · rw [max_eq_left h]
    exact ⟨le_rfl, (toStep_mono htick hx).trans h, .inl rfl⟩

theorem raisedStop_eq_max (htick : 0 < tick) (hs : Settled tick stopInitial stop)
    (highest mult atr : Decimal) :
    raisedStop stopInitial stop highest mult atr tick =
      max stop (candidate tick mult highest atr) := by
  have hbase : max stopInitial (toStep tick stop) = stop := by
    rcases hs.onTick with h | h
    · rw [← h]
      exact max_eq_left hs.toStep_le
    · rw [h]
      exact max_eq_right hs.initial_le
  have hlift : max (max stop (highest - mult * atr)) stopInitial = max stop (highest - mult * atr) :=
    max_eq_left (hs.initial_le.trans (le_max_left _ _))
  unfold raisedStop candidate
  rw [hlift, toStep_max htick, ← max_assoc, hbase]

theorem settled_max (htick : 0 < tick) (hs : Settled tick stopInitial stop) (x : Decimal) :
    Settled tick stopInitial (max stop (toStep tick x)) := by
  rcases le_total stop (toStep tick x) with h | h
  · rw [max_eq_right h]
    exact ⟨hs.initial_le.trans h, (toStep_toStep htick x).le, .inr (toStep_toStep htick x)⟩
  · rw [max_eq_left h]
    exact hs

end Settled

section Abstract

/-- A day as the two trailing rules see it. -/
structure Day where
  close : Decimal
  paperAtr : Decimal
  backtestAtr : Decimal

structure Trail where
  stop : Decimal
  highest : Decimal
deriving DecidableEq

/-- The paper rule keeps a new highest close only together with a raised stop. -/
def paperStep (tick mult : Decimal) (t : Trail) (d : Day) : Trail :=
  let stop := candidate tick mult (max t.highest d.close) d.paperAtr
  if stop ≤ t.stop then t else ⟨stop, max t.highest d.close⟩

def backtestStep (tick mult : Decimal) (t : Trail) (d : Day) : Trail :=
  ⟨max t.stop (candidate tick mult (max t.highest d.close) d.backtestAtr), max t.highest d.close⟩

def SameCandidate (tick mult : Decimal) (stored : Trail) (highest : Decimal) (d : Day) : Prop :=
  candidate tick mult highest d.backtestAtr ≤
      max stored.stop (candidate tick mult (max stored.highest d.close) d.paperAtr) ∧
    candidate tick mult (max stored.highest d.close) d.paperAtr ≤
      max stored.stop (candidate tick mult highest d.backtestAtr)

variable {tick mult : Decimal}

theorem paperStep_stop (t : Trail) (d : Day) :
    (paperStep tick mult t d).stop =
      max t.stop (candidate tick mult (max t.highest d.close) d.paperAtr) := by
  simp only [paperStep]
  split_ifs with h
  · exact (max_eq_left h).symm
  · exact (max_eq_right (not_le.mp h).le).symm

theorem step_stop_eq_iff (p b : Trail) (d : Day) (hstop : p.stop = b.stop) :
    (paperStep tick mult p d).stop = (backtestStep tick mult b d).stop ↔
      SameCandidate tick mult p (max b.highest d.close) d := by
  rw [paperStep_stop]
  unfold backtestStep SameCandidate
  rw [← hstop]
  constructor
  · intro h
    exact ⟨(le_max_right _ _).trans h.ge, (le_max_right _ _).trans h.le⟩
  · rintro ⟨hle, hge⟩
    exact le_antisymm (max_le (le_max_left _ _) hge) (max_le (le_max_left _ _) hle)

theorem stops_agree_iff (days : List Day) (p b : Trail) (hstop : p.stop = b.stop) :
    (∀ pre, pre <+: days → (pre.foldl (paperStep tick mult) p).stop =
        (pre.foldl (backtestStep tick mult) b).stop) ↔
      ∀ pre d post, days = pre ++ d :: post →
        SameCandidate tick mult (pre.foldl (paperStep tick mult) p)
          (max (pre.foldl (backtestStep tick mult) b).highest d.close) d := by
  induction days generalizing p b with
  | nil =>
    constructor
    · intro _ pre d post h
      simp at h
    · intro _ pre hpre
      rw [List.prefix_nil.mp hpre]
      exact hstop
  | cons d ds ih =>
    constructor
    · intro h pre e post heq
      have hd : (paperStep tick mult p d).stop = (backtestStep tick mult b d).stop :=
        h [d] ⟨ds, rfl⟩
      cases pre with
      | nil =>
        obtain ⟨rfl, rfl⟩ := List.cons.inj heq
        exact (step_stop_eq_iff p b d hstop).mp hd
      | cons x pre =>
        obtain ⟨rfl, htail⟩ := List.cons.inj heq
        refine (ih _ _ hd).mp (fun q hq => ?_) pre e post htail
        exact h (d :: q) (List.cons_prefix_cons.mpr ⟨rfl, hq⟩)
    · intro h pre hpre
      cases pre with
      | nil => exact hstop
      | cons x pre =>
        obtain ⟨rfl, htail⟩ := List.cons_prefix_cons.mp hpre
        have hd := (step_stop_eq_iff p b x hstop).mpr (h [] x ds rfl)
        refine (ih _ _ hd).mpr (fun q e post heq => ?_) pre htail
        exact h (x :: q) e post (by rw [heq]; rfl)

end Abstract

section Rows

structure TrailingDay where
  evaluationTime : Time
  candle : Candle
  atr : Decimal

def trailOf (p : PaperPosition) : Trail := ⟨p.currentStop, p.highestCloseSinceEntry⟩

/-- The ATRs the two sides use: the backtester takes a zero ATR for a missing one. -/
def TrailingDay.toDay (entryAtr14 : Decimal) (d : TrailingDay) : Day :=
  ⟨d.candle.close, d.atr, if d.atr = 0 then entryAtr14 else d.atr⟩

variable {constraints : SymbolConstraints} {params : StrategyParameters}

def dayRow (constraints : SymbolConstraints) (params : StrategyParameters) (d : TrailingDay)
    (p : PaperPosition) : PaperPosition :=
  match computeTrailingStopUpdate (trailingState p) d.candle.close d.atr params
      constraints.priceTickSize with
  | .ok updated => if updated.effectiveStop ≤ p.currentStop then p else raiseStop updated p
  | .error _ => p

theorem dayRow_trailOf (params : StrategyParameters) (htick : 0 < constraints.priceTickSize) (d : TrailingDay)
    {p : PaperPosition} (hs : Settled constraints.priceTickSize p.initialStop p.currentStop) :
    trailOf (dayRow constraints params d p) =
      paperStep constraints.priceTickSize params.trailAtrMult (trailOf p) (d.toDay p.entryAtr14) := by
  unfold dayRow computeTrailingStopUpdate
  rw [updateTrailingStop_ok htick]
  simp only [trailingState, raisedStop_eq_max htick hs, paperStep, TrailingDay.toDay, trailOf]
  by_cases h : candidate constraints.priceTickSize params.trailAtrMult
      (max p.highestCloseSinceEntry d.candle.close) d.atr ≤ p.currentStop
  · simp [h]
  · simp [h, raiseStop, (not_le.mp h).le]

theorem dayRow_settled (params : StrategyParameters) (htick : 0 < constraints.priceTickSize) (d : TrailingDay)
    {p : PaperPosition} (hs : Settled constraints.priceTickSize p.initialStop p.currentStop) :
    Settled constraints.priceTickSize p.initialStop (dayRow constraints params d p).currentStop := by
  have h := congrArg Trail.stop (dayRow_trailOf params htick d hs)
  rw [paperStep_stop] at h
  have hstop : (dayRow constraints params d p).currentStop = max p.currentStop
      (candidate constraints.priceTickSize params.trailAtrMult
        (max p.highestCloseSinceEntry d.candle.close) d.atr) := h
  rw [hstop]
  exact settled_max htick hs _

theorem dayRow_eq (constraints : SymbolConstraints) (params : StrategyParameters) (d : TrailingDay)
    (p : PaperPosition) : ∃ stop highest version, dayRow constraints params d p =
      { p with currentStop := stop, highestCloseSinceEntry := highest, version := version } := by
  unfold dayRow
  split
  · split_ifs
    · exact ⟨p.currentStop, p.highestCloseSinceEntry, p.version, rfl⟩
    · exact ⟨_, _, _, rfl⟩
  · exact ⟨p.currentStop, p.highestCloseSinceEntry, p.version, rfl⟩

end Rows

section Runs

variable {symbol : Symbol} {constraints : SymbolConstraints} {params : StrategyParameters}

def paperDay (symbol : Symbol) (constraints : SymbolConstraints) (params : StrategyParameters)
    (d : TrailingDay) : Query (List (Option StopUpdateResult)) :=
  updateDailyTrailingStops d.evaluationTime (.single symbol d.candle) (.single symbol d.atr)
    (.single symbol constraints) params

/-- The tables after the updates of the given days. -/
def paperDays (symbol : Symbol) (constraints : SymbolConstraints) (params : StrategyParameters)
    (db : Db) (days : List TrailingDay) : Db :=
  days.foldl (fun db d => (paperDay symbol constraints params d ⟨db, []⟩).2.db) db

def backtestDays (constraints : SymbolConstraints) (params : StrategyParameters)
    (pos : SimulatedPosition) (days : List TrailingDay) : Except Exc SimulatedPosition :=
  days.foldlM (fun pos d => updateTrailing pos [d.candle] d.candle (some d.atr) params
    constraints.priceTickSize) pos

theorem single_self {α : Type} (symbol : Symbol) (a : α) :
    BySymbol.single symbol a symbol = some a := if_pos rfl

theorem single_of_ne {α : Type} {symbol s : Symbol} (h : s ≠ symbol) (a : α) :
    BySymbol.single symbol a s = none := if_neg h

theorem persistRaisedStop_run {db : Db} {p : PaperPosition} {updated : TrailingStopState}
    {atr : Decimal} {time : Time} (hkeys : PositionKeys db) (hp : p ∈ db.positions)
    (hfresh : ∀ e ∈ db.stopHistory, e.positionId = p.positionId → e.evaluationTime ≠ time)
    (hle : p.currentStop ≤ updated.effectiveStop) : ∃ event,
    event.evaluationTime = time ∧ persistRaisedStop p updated atr time ⟨db, []⟩ = (.ok true,
      ⟨modifyPosition p.positionId (raiseStop updated)
        { db with stopHistory := db.stopHistory ++ [event], nextId := db.nextId + 1 }, []⟩) := by
  let event : PositionStopEvent := ⟨db.nextId, p.positionId, p.currentStop, updated.effectiveStop,
    updated.highestClose, atr, time, "TRAILING_UPDATE"⟩
  have hnone : db.stopHistory.find? (sameStopEvent event) = none := by
    refine List.find?_eq_none.mpr fun e he => ?_
    simpa [sameStopEvent, event] using hfresh e he
  have hinsert : insertOrGetStopEvent event ⟨{ db with nextId := db.nextId + 1 }, []⟩ = (.ok true,
      ⟨{ db with stopHistory := db.stopHistory ++ [event], nextId := db.nextId + 1 }, []⟩) :=
    insertOrGetStopEvent_run hnone hle
  have hget : getPosition p.positionId
      ⟨{ db with stopHistory := db.stopHistory ++ [event], nextId := db.nextId + 1 }, []⟩ =
      (.ok (some p), _) := getPosition_run ⟨hkeys.ids, hkeys.openUnique⟩ hp
  refine ⟨event, rfl, ?_⟩
  unfold persistRaisedStop
  rw [newId_bind, bind_of_ok hinsert, if_pos rfl, bind_of_ok hget]
  rfl

section OneSymbol

variable {time : Time} {p : PaperPosition} {candle : Candle} {atr : Decimal}
  {updated : TrailingStopState} {s t u : Session Db}

theorem updateTrailingStopOf_keep (hclosed : candle.isClosed)
    (hcompute : computeTrailingStopUpdate (trailingState p) candle.close atr params
      constraints.priceTickSize = .ok updated) (hle : updated.effectiveStop ≤ p.currentStop) :
    ∃ r, updateTrailingStopOf time p (some candle) (some atr) (some constraints) params s =
      (.ok r, s) := by
  unfold updateTrailingStopOf
  simp only [hclosed, Bool.not_true, Bool.false_eq_true, if_false, Option.getD_some, hcompute]
  rw [ofExcept_ok_bind, if_pos hle]
  exact ⟨_, rfl⟩

theorem updateTrailingStopOf_raise {r : PortfolioSnapshot × Bool} (hclosed : candle.isClosed)
    (hcompute : computeTrailingStopUpdate (trailingState p) candle.close atr params
      constraints.priceTickSize = .ok updated) (hlt : ¬updated.effectiveStop ≤ p.currentStop)
    (hpersist : persistRaisedStop p updated atr time s = (.ok true, t))
    (hsnapshot : captureSnapshot time "trailing_stop_update" t = (.ok r, u)) :
    ∃ r, updateTrailingStopOf time p (some candle) (some atr) (some constraints) params s =
      (.ok r, u) := by
  unfold updateTrailingStopOf
  simp only [hclosed, Bool.not_true, Bool.false_eq_true, if_false, Option.getD_some, hcompute]
  rw [ofExcept_ok_bind, if_neg hlt, bind_of_ok (scope_of_ok hpersist), if_pos rfl,
    bind_of_ok hsnapshot]
  exact ⟨_, rfl⟩

end OneSymbol

/-- A position that waits for its next trailing update. -/
structure Trailing (tick : Decimal) (symbol : Symbol) (db : Db) (p : PaperPosition) : Prop where
  keys : PositionKeys db
  wallet : db.wallet.isSome
  mem : p ∈ openOf db symbol
  settled : Settled tick p.initialStop p.currentStop

theorem Trailing.raise {tick : Decimal} {db db' : Db} {p : PaperPosition}
    {updated : TrailingStopState} {history : List PositionStopEvent} {n : Id}
    (h : Trailing tick symbol db p)
    (hs : Settled tick p.initialStop updated.effectiveStop)
    (hdb : SnapshotOnly (modifyPosition p.positionId (raiseStop updated)
      { db with stopHistory := history, nextId := n }) db') :
    Trailing tick symbol db' (raiseStop updated p) := by
  have hkeys : PositionKeys (modifyPosition p.positionId (raiseStop updated)
      { db with stopHistory := history, nextId := n }) :=
    modifyPosition_keys ⟨h.keys.ids, h.keys.openUnique⟩ (fun _ => rfl) (fun _ => rfl) (fun _ => rfl)
  have hmem : raiseStop updated p ∈ openOf (modifyPosition p.positionId (raiseStop updated)
      { db with stopHistory := history, nextId := n }) symbol :=
    mem_openOf_modifyPosition h.mem (fun _ => rfl) (fun _ => rfl)
  obtain ⟨snapshots, n', rfl⟩ := hdb
  exact ⟨⟨hkeys.ids, hkeys.openUnique⟩, h.wallet, hmem, hs⟩

theorem updateTrailingStopForSymbol_run (params : StrategyParameters) {db : Db} {p : PaperPosition}
    (d : TrailingDay)
    (htick : 0 < constraints.priceTickSize) (h : Trailing constraints.priceTickSize symbol db p)
    (hclosed : d.candle.isClosed)
    (hfresh : ∀ e ∈ db.stopHistory, e.positionId = p.positionId → e.evaluationTime ≠ d.evaluationTime) :
    ∃ r db', updateTrailingStopForSymbol d.evaluationTime (.single symbol d.candle)
        (.single symbol d.atr) (.single symbol constraints) params symbol ⟨db, []⟩ =
        (.ok r, ⟨db', []⟩) ∧
      Trailing constraints.priceTickSize symbol db' (dayRow constraints params d p) ∧
      ∀ e ∈ db'.stopHistory, e ∈ db.stopHistory ∨ e.evaluationTime = d.evaluationTime := by
  obtain ⟨hmem, -, -⟩ := mem_openOf.mp h.mem
  obtain ⟨updated, hcompute⟩ : ∃ updated, computeTrailingStopUpdate (trailingState p) d.candle.close
      d.atr params constraints.priceTickSize = .ok updated := ⟨_, updateTrailingStop_ok htick _ _ _ _⟩
  have hsettled := dayRow_settled params htick d h.settled
  unfold updateTrailingStopForSymbol
  rw [bind_of_ok (getOpenPositionForSymbol_of_mem h.keys h.mem)]
  simp only [single_self, dayRow, hcompute] at hsettled ⊢
  by_cases hle : updated.effectiveStop ≤ p.currentStop
  · have hkeep : ∃ r, updateTrailingStopOf d.evaluationTime p (some d.candle) (some d.atr)
        (some constraints) params ⟨db, []⟩ = (.ok r, ⟨db, []⟩) :=
      updateTrailingStopOf_keep hclosed hcompute hle
    obtain ⟨r, hr⟩ := hkeep
    rw [bind_of_ok hr, if_pos hle]
    exact ⟨_, db, rfl, h, fun e he => .inl he⟩
  · obtain ⟨event, htime, hpersist⟩ := persistRaisedStop_run h.keys hmem hfresh (not_le.mp hle).le
    obtain ⟨r, db', hsnapshot⟩ := captureSnapshot_run (modifyPosition p.positionId (raiseStop updated)
      { db with stopHistory := db.stopHistory ++ [event], nextId := db.nextId + 1 }) h.wallet
      d.evaluationTime "trailing_stop_update"
    obtain ⟨r', hr'⟩ := updateTrailingStopOf_raise hclosed hcompute hle hpersist hsnapshot
    have hdb := captureSnapshot_ok hsnapshot
    rw [if_neg hle] at hsettled
    rw [bind_of_ok hr', if_neg hle]
    refine ⟨_, db', rfl, h.raise hsettled hdb, ?_⟩
    obtain ⟨snapshots, n, rfl⟩ := hdb
    intro e he
    rcases List.mem_append.mp he with he | he
    · exact .inl he
    · exact .inr (List.mem_singleton.mp he ▸ htime)

theorem paperDay_run (params : StrategyParameters) {db : Db} {p : PaperPosition} (d : TrailingDay)
    (htick : 0 < constraints.priceTickSize) (h : Trailing constraints.priceTickSize symbol db p)
    (hclosed : d.candle.isClosed)
    (hfresh : ∀ e ∈ db.stopHistory, e.positionId = p.positionId → e.evaluationTime ≠ d.evaluationTime) :
    ∃ r db', paperDay symbol constraints params d ⟨db, []⟩ = (.ok r, ⟨db', []⟩) ∧
      Trailing constraints.priceTickSize symbol db' (dayRow constraints params d p) ∧
      ∀ e ∈ db'.stopHistory, e ∈ db.stopHistory ∨ e.evaluationTime = d.evaluationTime := by
  obtain ⟨r, db', hrun, htrailing, hhistory⟩ :=
    updateTrailingStopForSymbol_run params d htick h hclosed hfresh
  have hother : ∀ s ∈ symbolProcessingOrder, s ≠ symbol → ∀ u : Session Db,
      u = ⟨db, []⟩ ∨ u = ⟨db', []⟩ → ∃ r, updateTrailingStopForSymbol d.evaluationTime
        (.single symbol d.candle) (.single symbol d.atr) (.single symbol constraints) params s u =
        (.ok r, u) := by
    intro s _ hne u hu
    have hkeys : PositionKeys u.db := by
      rcases hu with rfl | rfl
      · exact h.keys
      · exact htrailing.keys
    unfold updateTrailingStopForSymbol
    rw [bind_of_ok (getOpenPositionForSymbol_run hkeys s), single_of_ne hne]
    rcases (openOf u.db s).head? with _ | q
    · exact ⟨_, rfl⟩
    · exact ⟨_, rfl⟩
  obtain ⟨rs, hrs⟩ := forEach_run_single (by decide) (mem_symbolProcessingOrder symbol) hrun hother
  exact ⟨rs, db', hrs, htrailing, hhistory⟩

def dayRows (constraints : SymbolConstraints) (params : StrategyParameters) (p : PaperPosition)
    (days : List TrailingDay) : PaperPosition :=
  days.foldl (fun p d => dayRow constraints params d p) p

theorem paperDays_run (params : StrategyParameters) {db : Db} {p : PaperPosition}
    (htick : 0 < constraints.priceTickSize) (days : List TrailingDay)
    (h : Trailing constraints.priceTickSize symbol db p)
    (hclosed : ∀ d ∈ days, d.candle.isClosed) (htimes : (days.map (·.evaluationTime)).Nodup)
    (hfresh : ∀ d ∈ days, ∀ e ∈ db.stopHistory,
      e.positionId = p.positionId → e.evaluationTime ≠ d.evaluationTime) :
    Trailing constraints.priceTickSize symbol (paperDays symbol constraints params db days)
      (dayRows constraints params p days) := by
  induction days generalizing db p with
  | nil => exact h
  | cons d ds ih =>
    obtain ⟨hd, hds⟩ := List.nodup_cons.mp htimes
    obtain ⟨r, db', hrun, h', hhistory⟩ := paperDay_run params d htick h
      (hclosed d List.mem_cons_self) (hfresh d List.mem_cons_self)
    have hstep : paperDays symbol constraints params db (d :: ds) =
        paperDays symbol constraints params db' ds := by
      simp only [paperDays, List.foldl_cons, hrun]
    rw [hstep]
    refine ih h' (fun e he => hclosed e (List.mem_cons_of_mem _ he)) hds fun e he event hevent hid => ?_
    rcases hhistory event hevent with hold | hnew
    · obtain ⟨_, _, _, hrow⟩ := dayRow_eq constraints params d p
      have hrowId : (dayRow constraints params d p).positionId = p.positionId := by rw [hrow]
      exact hfresh e (List.mem_cons_of_mem _ he) event hold (hid.trans hrowId)
    · rw [hnew]
      intro heq
      exact hd (List.mem_map.mpr ⟨e, he, heq.symm⟩)

theorem dayRows_trailOf (params : StrategyParameters) (htick : 0 < constraints.priceTickSize)
    (days : List TrailingDay) {p : PaperPosition}
    (hs : Settled constraints.priceTickSize p.initialStop p.currentStop) :
    trailOf (dayRows constraints params p days) = (days.map (·.toDay p.entryAtr14)).foldl
      (paperStep constraints.priceTickSize params.trailAtrMult) (trailOf p) := by
  induction days generalizing p with
  | nil => rfl
  | cons d ds ih =>
    obtain ⟨stop, highest, version, hrow⟩ := dayRow_eq constraints params d p
    have hsettled := dayRow_settled params htick d hs
    have hnext := dayRow_trailOf params htick d hs
    have hinitial : (dayRow constraints params d p).initialStop = p.initialStop := by rw [hrow]
    have hatr : (dayRow constraints params d p).entryAtr14 = p.entryAtr14 := by rw [hrow]
    rw [← hinitial] at hsettled
    have htail := ih hsettled
    rw [hatr, hnext] at htail
    exact htail

end Runs

section Backtest

variable {constraints : SymbolConstraints} {params : StrategyParameters}

def backtestTrail (pos : SimulatedPosition) : Trail := ⟨pos.effectiveStop, pos.highestClose⟩

structure BacktestSettled (tick : Decimal) (pos : SimulatedPosition) : Prop where
  effective_eq : pos.effectiveStop = max pos.initialStop pos.trailStop
  settled : Settled tick pos.initialStop pos.effectiveStop

theorem updateTrailing_run (params : StrategyParameters) (htick : 0 < constraints.priceTickSize)
    (d : TrailingDay) {pos : SimulatedPosition}
    (h : BacktestSettled constraints.priceTickSize pos) :
    ∃ pos', updateTrailing pos [d.candle] d.candle (some d.atr) params constraints.priceTickSize =
        .ok pos' ∧
      BacktestSettled constraints.priceTickSize pos' ∧ pos'.entryAtr14 = pos.entryAtr14 ∧
      backtestTrail pos' = backtestStep constraints.priceTickSize params.trailAtrMult
        (backtestTrail pos) (d.toDay pos.entryAtr14) := by
  have hatr : trailingAtr pos (some d.atr) = (d.toDay pos.entryAtr14).backtestAtr := rfl
  have hraised : raisedStop pos.initialStop pos.trailStop (max pos.highestClose d.candle.close)
      params.trailAtrMult (d.toDay pos.entryAtr14).backtestAtr constraints.priceTickSize =
      max pos.effectiveStop (candidate constraints.priceTickSize params.trailAtrMult
        (max pos.highestClose d.candle.close) (d.toDay pos.entryAtr14).backtestAtr) := by
    rw [← raisedStop_max_initial, ← h.effective_eq]
    exact raisedStop_eq_max htick h.settled _ _ _
  have hrun : updateTrailing pos [d.candle] d.candle (some d.atr) params constraints.priceTickSize =
      .ok { pos with
            trailStop := toStep constraints.priceTickSize (max (max pos.trailStop
              (max pos.highestClose d.candle.close -
                params.trailAtrMult * (d.toDay pos.entryAtr14).backtestAtr)) pos.initialStop)
            effectiveStop := max pos.effectiveStop (candidate constraints.priceTickSize
              params.trailAtrMult (max pos.highestClose d.candle.close)
              (d.toDay pos.entryAtr14).backtestAtr)
            highestClose := max pos.highestClose d.candle.close } := by
    unfold updateTrailing computeTrailingStopUpdate
    rw [updateTrailingStop_ok htick, hatr, ← hraised]
    rfl
  exact ⟨_, hrun, ⟨hraised.symm, settled_max htick h.settled _⟩, rfl, rfl⟩

theorem backtestDays_run (params : StrategyParameters) (htick : 0 < constraints.priceTickSize)
    (days : List TrailingDay) {pos : SimulatedPosition}
    (h : BacktestSettled constraints.priceTickSize pos) :
    ∃ pos', backtestDays constraints params pos days = .ok pos' ∧
      backtestTrail pos' = (days.map (·.toDay pos.entryAtr14)).foldl
        (backtestStep constraints.priceTickSize params.trailAtrMult) (backtestTrail pos) := by
  induction days generalizing pos with
  | nil => exact ⟨pos, rfl, rfl⟩
  | cons d ds ih =>
    obtain ⟨pos', hstep, h', hatr, htrail⟩ := updateTrailing_run params htick d h
    obtain ⟨pos'', hrun, hfold⟩ := ih h'
    refine ⟨pos'', ?_, ?_⟩
    · unfold backtestDays at hrun ⊢
      rw [List.foldlM_cons, hstep]
      exact hrun
    · rw [hfold, hatr, htrail]
      rfl

end Backtest

section Parity

variable {symbol : Symbol} {constraints : SymbolConstraints} {params : StrategyParameters}

/-- A position as the entry fill leaves it, with `trailStop` the trail the backtester keeps. -/
structure Entered (symbol : Symbol) (constraints : SymbolConstraints) (params : StrategyParameters)
    (db : Db) (p : PaperPosition) (trailStop : Decimal) : Prop where
  tick_pos : 0 < constraints.priceTickSize
  keys : PositionKeys db
  wallet : db.wallet.isSome
  mem : p ∈ openOf db symbol
  init : initializeTrailingStop p.averageEntryPrice p.entryAtr14 p.initialStop params
    (some constraints.priceTickSize) = .ok ⟨p.averageEntryPrice, p.initialStop,
      p.highestCloseSinceEntry, trailStop, p.currentStop⟩
  history : ∀ e ∈ db.stopHistory, e.positionId ≠ p.positionId

structure ClosedDays (days : List TrailingDay) : Prop where
  closed : ∀ d ∈ days, d.candle.isClosed
  times : (days.map (·.evaluationTime)).Nodup

def enteredPosition (p : PaperPosition) (trailStop : Decimal) : SimulatedPosition :=
  { paperPositionToSimulated p with trailStop := trailStop }

def StopsAgree (symbol : Symbol) (db : Db) (backtest : Except Exc SimulatedPosition) : Prop :=
  ∃ row pos, openOf db symbol = [row] ∧ backtest = .ok pos ∧ row.currentStop = pos.effectiveStop

def highestCloseSince (entry : Decimal) (days : List TrailingDay) : Decimal :=
  days.foldl (fun h d => max h d.candle.close) entry

theorem Entered.spec {db : Db} {p : PaperPosition} {trailStop : Decimal}
    (h : Entered symbol constraints params db p trailStop) :
    p.averageEntryPrice = p.highestCloseSinceEntry ∧
      p.currentStop = max p.initialStop trailStop ∧
      Settled constraints.priceTickSize p.initialStop p.currentStop := by
  have hinit := h.init
  simp only [initializeTrailingStop, roundIfTick, roundToTick_of_pos h.tick_pos, bind, Except.bind,
    pure, Except.pure, Except.ok.injEq, TrailingStopState.mk.injEq, true_and] at hinit
  obtain ⟨hentry, htrail, hstop⟩ := hinit
  rw [htrail] at hstop
  refine ⟨hentry, hstop.symm, ?_⟩
  rw [← hstop, ← htrail]
  exact settled_raisedStop h.tick_pos _ (le_max_right _ _)

theorem Entered.settled {db : Db} {p : PaperPosition} {trailStop : Decimal}
    (h : Entered symbol constraints params db p trailStop) :
    Settled constraints.priceTickSize p.initialStop p.currentStop := h.spec.2.2

theorem backtestStep_highest (tick mult : Decimal) (days : List TrailingDay) (entryAtr14 : Decimal)
    (b : Trail) : ((days.map (·.toDay entryAtr14)).foldl (backtestStep tick mult) b).highest =
      highestCloseSince b.highest days := by
  induction days generalizing b with
  | nil => rfl
  | cons d ds ih => exact ih _

theorem ClosedDays.of_prefix {days pre : List TrailingDay} (h : ClosedDays days)
    (hpre : pre <+: days) : ClosedDays pre :=
  ⟨fun d hd => h.closed d (hpre.subset hd), h.times.sublist (hpre.sublist.map _)⟩

theorem paperDays_openOf {db : Db} {p : PaperPosition} {trailStop : Decimal}
    {days : List TrailingDay} (h : Entered symbol constraints params db p trailStop)
    (hdays : ClosedDays days) :
    openOf (paperDays symbol constraints params db days) symbol =
      [dayRows constraints params p days] := by
  have hrun := paperDays_run params h.tick_pos days ⟨h.keys, h.wallet, h.mem, h.settled⟩
    hdays.closed hdays.times fun d _ e he hid => absurd hid (h.history e he)
  exact openOf_eq_of_mem hrun.keys hrun.mem

theorem stopsAgree_iff {db : Db} {p : PaperPosition} {trailStop : Decimal} {days : List TrailingDay}
    (h : Entered symbol constraints params db p trailStop) (hdays : ClosedDays days) :
    StopsAgree symbol (paperDays symbol constraints params db days)
        (backtestDays constraints params (enteredPosition p trailStop) days) ↔
      ((days.map (·.toDay p.entryAtr14)).foldl
          (paperStep constraints.priceTickSize params.trailAtrMult) (trailOf p)).stop =
        ((days.map (·.toDay p.entryAtr14)).foldl
          (backtestStep constraints.priceTickSize params.trailAtrMult) (trailOf p)).stop := by
  obtain ⟨-, heff, hsettled⟩ := h.spec
  obtain ⟨pos, hback, htrail⟩ := backtestDays_run params h.tick_pos days
    (⟨heff, hsettled⟩ : BacktestSettled constraints.priceTickSize (enteredPosition p trailStop))
  have hrow := dayRows_trailOf params h.tick_pos days hsettled
  have hopen := paperDays_openOf h hdays
  have hbacktrail : backtestTrail (enteredPosition p trailStop) = trailOf p := rfl
  have hatr : (enteredPosition p trailStop).entryAtr14 = p.entryAtr14 := rfl
  rw [hatr, hbacktrail] at htrail
  rw [← hrow, ← htrail]
  constructor
  · rintro ⟨row, pos', hrow', hpos', hstop⟩
    rw [hopen] at hrow'
    rw [hback] at hpos'
    obtain rfl := List.singleton_inj.mp hrow'
    obtain rfl := Except.ok.inj hpos'
    exact hstop
  · intro hstop
    exact ⟨_, pos, hopen, hback, hstop⟩

def exampleConstraints : SymbolConstraints :=
  { quantityStep := 1 / 1000, minimumQuantity := 1 / 1000, priceTickSize := 1 / 10 }

def examplePosition : PaperPosition :=
  { positionId := 0, symbol := .BTC, status := .open_, quantity := 1, averageEntryPrice := 100
    initialStop := 75, currentStop := 75, highestCloseSinceEntry := 100, entryAtr14 := 10
    marginReserved := 50, entryIntentId := 1, openedAt := 0 }

def exampleDb : Db :=
  { wallet := some { cash := 1000 }, positions := [examplePosition], nextId := 2 }

def exampleDay (n : ℕ) (close atr : Decimal) : TrailingDay :=
  { evaluationTime := n * day + 5 * second, atr
    candle := { symbol := .BTC, timeframe := .daily, openTime := (n - 1) * day
                closeTime := n * day - second, openPrice := close, high := close, low := close
                close, volume := 1, isClosed := true } }

theorem example_entered : Entered .BTC exampleConstraints {} exampleDb examplePosition 75 where
  tick_pos := by decide +kernel
  keys := ⟨by decide +kernel, fun s => by cases s <;> decide +kernel⟩
  wallet := rfl
  mem := by decide +kernel
  init := by decide +kernel
  history := fun _ he => by cases he

end Parity

end TradingBot.Paper.TrailingParity
