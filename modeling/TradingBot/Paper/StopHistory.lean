import TradingBot.Paper.Effects

namespace TradingBot.Paper.StopHistory

open Market.Models Strategy.Models Strategy.Stops Exceptions Constraints Backtester.Lifecycle
open Library.Transaction Paper.Models Paper.Repository Paper.Stops Paper.PositionTable

section Chain

/-- The events lead from one stop to another: each starts where the one before ended, and raises. -/
def ChainTo : Decimal → List PositionStopEvent → Decimal → Prop
  | start, [], stop => start = stop
  | start, e :: events, stop => e.previousStop = start ∧ e.previousStop < e.newStop ∧
    ChainTo e.newStop events stop

variable {start middle stop : Decimal} {events : List PositionStopEvent}

theorem ChainTo.append {e : PositionStopEvent} (h : ChainTo start events middle)
    (hprevious : e.previousStop = middle) (hraised : middle < e.newStop) :
    ChainTo start (events ++ [e]) e.newStop := by
  induction events generalizing start with
  | nil =>
    have hstart : start = middle := h
    exact ⟨hprevious.trans hstart.symm, hprevious ▸ hraised, rfl⟩
  | cons e' events ih => exact ⟨h.1, h.2.1, ih h.2.2⟩

theorem ChainTo.le (h : ChainTo start events stop) : start ≤ stop := by
  induction events generalizing start with
  | nil =>
    have hstart : start = stop := h
    exact hstart.le
  | cons e events ih =>
    obtain ⟨rfl, hraised, hrest⟩ := h
    exact hraised.le.trans (ih hrest)

end Chain

def stopEventsOf (db : Db) (positionId : Id) : List PositionStopEvent :=
  db.stopHistory.filter (·.positionId = positionId)

structure Trailed (positionId : Id) (initialStop start : Decimal) (old : List PositionStopEvent)
    (db : Db) : Prop where
  ids : (db.positions.map (·.positionId)).Nodup
  row : ∃ p ∈ db.positions, p.positionId = positionId ∧ p.initialStop = initialStop ∧
    ∃ new, stopEventsOf db positionId = old ++ new ∧ ChainTo start new p.currentStop

section Steps

variable {positionId : Id} {initialStop start : Decimal} {old : List PositionStopEvent} {s : Session Db}

theorem Trailed.of_tables {db db' : Db} (h : Trailed positionId initialStop start old db)
    (hpositions : db'.positions = db.positions) (hhistory : db'.stopHistory = db.stopHistory) :
    Trailed positionId initialStop start old db' := by
  obtain ⟨hids, hrow⟩ := h
  exact ⟨by rwa [hpositions], by simpa only [stopEventsOf, hpositions, hhistory] using hrow⟩

theorem keeps_captureSnapshot (time : Time) (event : String) :
    Keeps (Trailed positionId initialStop start old) (captureSnapshot time event) := by
  refine captureSnapshot_keeps ?_ time event
  rintro db db' ⟨snapshots, nextId, rfl⟩ hdb
  exact hdb.of_tables rfl rfl

theorem getOpenPositionForSymbol_same {symbol : Symbol} {r : Except Exc (Option PaperPosition)}
    {s' : Session Db} (h : getOpenPositionForSymbol symbol s = (r, s')) : s' = s := by
  unfold getOpenPositionForSymbol at h
  rw [read_bind] at h
  rcases hrows : s.db.positions.filter fun p => decide (p.symbol = symbol) && isOpen p with
    _ | ⟨q, _ | ⟨_, _⟩⟩ <;> rw [hrows] at h <;> exact (congrArg Prod.snd h).symm

theorem getOpenPositionForSymbol_mem {symbol : Symbol} {p : PaperPosition} {s' : Session Db}
    (h : getOpenPositionForSymbol symbol s = (.ok (some p), s')) : p ∈ s.db.positions := by
  unfold getOpenPositionForSymbol at h
  rw [read_bind] at h
  rcases hrows : s.db.positions.filter fun p => decide (p.symbol = symbol) && isOpen p with
    _ | ⟨q, _ | ⟨_, _⟩⟩ <;> rw [hrows] at h
  · cases h
  · cases h
    exact List.mem_of_mem_filter (hrows ▸ List.mem_cons_self)
  · cases h

theorem Trailed.raise {db db' : Db} {position : PaperPosition} {updated : TrailingStopState}
    {e : PositionStopEvent} (h : Trailed positionId initialStop start old db)
    (hposition : position ∈ db.positions) (hraised : position.currentStop < updated.effectiveStop)
    (hid : e.positionId = position.positionId) (hprevious : e.previousStop = position.currentStop)
    (hnew : e.newStop = updated.effectiveStop) (hhistory : db'.stopHistory = db.stopHistory ++ [e])
    (hpositions : db'.positions = (modifyPosition position.positionId (raiseStop updated) db).positions) :
    Trailed positionId initialStop start old db' := by
  obtain ⟨hids, p, hp, rfl, hinitial, new, hevents, hchain⟩ := h
  refine ⟨?_, ?_⟩
  · have hkeep : ∀ p, (raiseStop updated p).positionId = p.positionId := fun _ => rfl
    rw [hpositions, modifyPosition_ids hkeep]
    exact hids
  · have hmem : (if p.positionId = position.positionId then raiseStop updated p else p) ∈ db'.positions := by
      rw [hpositions]
      exact List.mem_map.mpr ⟨p, hp, rfl⟩
    have hnewEvents : stopEventsOf db' p.positionId =
        old ++ new ++ [e].filter (·.positionId = p.positionId) := by
      rw [stopEventsOf, hhistory, List.filter_append, ← hevents, stopEventsOf]
    by_cases hsame : p.positionId = position.positionId
    · -- ids are unique, so the raised row is the row of this position
      have hrow : p = position := List.inj_on_of_nodup_map hids hp hposition hsame
      subst hrow
      rw [if_pos rfl] at hmem
      refine ⟨_, hmem, rfl, hinitial, new ++ [e], ?_, ?_⟩
      · simpa [hid] using hnewEvents
      · have happended := hchain.append hprevious (hnew ▸ hraised)
        rwa [hnew] at happended
    · rw [if_neg hsame] at hmem
      refine ⟨p, hmem, rfl, hinitial, new, ?_, hchain⟩
      have hother : e.positionId ≠ p.positionId := fun heq => hsame (heq.symm.trans hid)
      simpa [hother] using hnewEvents

theorem keeps_updateTrailingStopOf {time : Time} {position : PaperPosition} {candle : Option Candle}
    {atr : Option Decimal} {constraints : Option SymbolConstraints} {params : StrategyParameters}
    (hposition : position ∈ s.db.positions) (hs : Trailed positionId initialStop start old s.db) :
    Trailed positionId initialStop start old
      (updateTrailingStopOf time position candle atr constraints params s).2.db := by
  unfold updateTrailingStopOf
  dsimp only
  split
  · rename_i candle constraints
    split_ifs with hclosed
    · exact hs
    · cases hupdate : computeTrailingStopUpdate (trailingState position) candle.close
        (atr.getD position.entryAtr14) params constraints.priceTickSize with
      | error exc => exact hs
      | ok updated =>
        change Trailed _ _ _ _ ((if updated.effectiveStop ≤ position.currentStop then _ else _ : Query _) s).2.db
        split_ifs with hraised
        · exact hs
        · refine bind_keeps ?_ fun created => ?_
          · refine scope_keeps hs fun created s' hrun => ?_
            rcases Effects.persistRaisedStop_ok hrun with hdb | hdb
            · exact hs.of_tables (hdb ▸ rfl) (hdb ▸ rfl)
            · rw [hdb]
              exact hs.raise hposition (not_le.mp hraised) rfl rfl rfl rfl rfl
          · split_ifs
            · exact keeps_bind (keeps_captureSnapshot _ _) fun _ => keeps_pure _
            · exact keeps_pure _
  · exact hs

theorem keeps_updateTrailingStopForSymbol (time : Time) (candles : BySymbol Candle)
    (atrs : BySymbol Decimal) (constraints : BySymbol SymbolConstraints) (params : StrategyParameters)
    (symbol : Symbol) :
    Keeps (Trailed positionId initialStop start old)
      (updateTrailingStopForSymbol time candles atrs constraints params symbol) := by
  intro s hs
  unfold updateTrailingStopForSymbol
  rcases hopen : getOpenPositionForSymbol symbol s with ⟨exc | found, s'⟩
  · rw [bind_of_error hopen, getOpenPositionForSymbol_same hopen]
    exact hs
  · rw [bind_of_ok hopen, getOpenPositionForSymbol_same hopen]
    cases found with
    | none => exact hs
    | some p =>
      have hmem : p ∈ s.db.positions := getOpenPositionForSymbol_mem hopen
      exact bind_keeps (keeps_updateTrailingStopOf hmem hs) fun _ => keeps_pure _

theorem keeps_updateDailyTrailingStops (time : Time) (candles : BySymbol Candle) (atrs : BySymbol Decimal)
    (constraints : BySymbol SymbolConstraints) (params : StrategyParameters) :
    Keeps (Trailed positionId initialStop start old)
      (updateDailyTrailingStops time candles atrs constraints params) :=
  keeps_forEach fun symbol _ => keeps_updateTrailingStopForSymbol time candles atrs constraints params symbol

end Steps

section Runs

/-- A call of the daily update with its inputs, the writes that fail, and whether the transaction
around it is committed. -/
structure TrailingUpdate where
  evaluationTime : Time
  dailyCandles : BySymbol Candle
  evaluationAtrBySymbol : BySymbol Decimal
  constraintsBySymbol : BySymbol SymbolConstraints
  params : StrategyParameters
  faults : List Bool := []
  commits : Bool := true

def TrailingUpdate.apply (db : Db) (u : TrailingUpdate) : Db :=
  if u.commits then
    (updateDailyTrailingStops u.evaluationTime u.dailyCandles u.evaluationAtrBySymbol
      u.constraintsBySymbol u.params ⟨db, u.faults⟩).2.db
  else db

def runUpdates (db : Db) (updates : List TrailingUpdate) : Db := updates.foldl TrailingUpdate.apply db

variable {positionId : Id} {initialStop start : Decimal} {old : List PositionStopEvent} {db : Db}

theorem Trailed.apply (h : Trailed positionId initialStop start old db) (u : TrailingUpdate) :
    Trailed positionId initialStop start old (u.apply db) := by
  unfold TrailingUpdate.apply
  split_ifs
  · exact keeps_updateDailyTrailingStops _ _ _ _ _ ⟨db, u.faults⟩ h
  · exact h

theorem Trailed.runUpdates (h : Trailed positionId initialStop start old db)
    (updates : List TrailingUpdate) :
    Trailed positionId initialStop start old (runUpdates db updates) := by
  induction updates generalizing db with
  | nil => exact h
  | cons u updates ih => exact ih (h.apply u)

def currentStopOf (db : Db) (positionId : Id) : Option Decimal :=
  (db.positions.find? (·.positionId = positionId)).map (·.currentStop)

theorem Trailed.currentStopOf (h : Trailed positionId initialStop start old db) :
    ∃ stop new, currentStopOf db positionId = some stop ∧ stopEventsOf db positionId = old ++ new ∧
      ChainTo start new stop := by
  obtain ⟨hids, p, hp, rfl, _, new, hevents, hchain⟩ := h
  refine ⟨p.currentStop, new, ?_, hevents, hchain⟩
  have hfind : db.positions.find? (·.positionId = p.positionId) = some p := by
    have hsome : (db.positions.find? (·.positionId = p.positionId)).isSome :=
      List.find?_isSome.mpr ⟨p, hp, by simp⟩
    obtain ⟨q, hq⟩ := Option.isSome_iff_exists.mp hsome
    have hid : q.positionId = p.positionId := by simpa using List.find?_some hq
    rw [hq, List.inj_on_of_nodup_map hids (List.mem_of_find?_eq_some hq) hp hid]
  simp [StopHistory.currentStopOf, hfind]

def sampleDb : Db :=
  { wallet := some { cash := 1000 }
    positions := [{ positionId := 0, symbol := .BTC, status := .open_, quantity := 1
                    averageEntryPrice := 100, initialStop := 75, currentStop := 75
                    highestCloseSinceEntry := 100, entryAtr14 := 10, marginReserved := 50
                    entryIntentId := 0, openedAt := 0 }]
    nextId := 1 }

def sampleUpdate : TrailingUpdate :=
  { evaluationTime := day
    dailyCandles := BySymbol.single .BTC
      { symbol := .BTC, timeframe := .daily, openTime := 0, closeTime := day - second, openPrice := 100
        high := 110, low := 100, close := 110, volume := 1, isClosed := true }
    evaluationAtrBySymbol := BySymbol.single .BTC 10
    constraintsBySymbol := BySymbol.single .BTC
      { quantityStep := 1 / 1000, minimumQuantity := 1 / 1000, priceTickSize := 1 / 10 }
    params := {} }

end Runs

end TradingBot.Paper.StopHistory
