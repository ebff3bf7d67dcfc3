import TradingBot.Library.FirstWrites
import TradingBot.Paper.StopHistory
import TradingBot.Paper.StopJobs

namespace TradingBot.Paper.StopSnapshots

open Market.Models Strategy.Models Exceptions Constraints Backtester.Lifecycle Library.Transaction Library.FirstWrites
open Paper.Models Paper.Repository Paper.Stops Paper.Effects
open Paper.PositionTable (modifyPosition captureSnapshot_ok insertOrGetPortfolioSnapshot_ok)
open Paper.StopHistory (getOpenPositionForSymbol_same)

section Operations

inductive Operation
  | stopExit (config : PaperTradingConfig) (check : StopCheck) (processTime : Time) (candles : BySymbol Candle)
      (constraintsBySymbol : BySymbol SymbolConstraints) (symbol : Symbol)
  | trailingUpdate (evaluationTime : Time) (dailyCandles : BySymbol Candle)
      (evaluationAtrBySymbol : BySymbol Decimal) (constraintsBySymbol : BySymbol SymbolConstraints)
      (params : StrategyParameters) (symbol : Symbol)

def Operation.event : Operation → String
  | .stopExit .. => "position_close"
  | .trailingUpdate .. => "trailing_stop_update"

def Operation.time : Operation → Time
  | .stopExit _ _ processTime _ _ _ => processTime
  | .trailingUpdate evaluationTime _ _ _ _ _ => evaluationTime

/-- The operation; it returns whether it took a snapshot. -/
def Operation.perform : Operation → Query Bool
  | .stopExit config check processTime candles constraintsBySymbol symbol => do
    let result ← closeSymbolIfStopped config check processTime candles constraintsBySymbol symbol
    pure (result.any (·.closed))
  | .trailingUpdate evaluationTime dailyCandles evaluationAtrBySymbol constraintsBySymbol params symbol => do
    let result ← updateTrailingStopForSymbol evaluationTime dailyCandles evaluationAtrBySymbol constraintsBySymbol
      params symbol
    pure (result.any (·.updated))

/-- A snapshot is stored under its event and second. -/
abbrev SnapshotKey := String × ℤ

def Operation.key (op : Operation) : SnapshotKey := (op.event, wholeSeconds op.time)

def keyOf (p : PortfolioSnapshot) : SnapshotKey := (p.event, wholeSeconds p.evaluationTime)

/-- Cash, realized PnL and number of open positions. -/
abbrev Portfolio := Decimal × Decimal × ℕ

def portfolioOf (p : PortfolioSnapshot) : Portfolio := (p.cash, p.realizedPnl, p.openPositionCount)

def portfolio (db : Db) : Option Portfolio :=
  db.wallet.map fun wallet => (wallet.cash, wallet.totalRealizedPnl, (db.positions.filter isOpen).length)

def ofStops (p : PortfolioSnapshot) : Bool := p.event = "position_close" ∨ p.event = "trailing_stop_update"

def stopSnapshots (db : Db) : List PortfolioSnapshot := db.snapshots.filter ofStops

/-- A step of a run: an operation with the writes that fail, or other work, which is stopped where it touches the
snapshots of stop exits and trailing updates. -/
inductive Step
  | operate (op : Operation) (faults : List Bool)
  | elsewhere (db : Db)

def step (db : Db) : Step → Db
  | .operate op faults => (op.perform ⟨db, faults⟩).2.db
  | .elsewhere db' => if stopSnapshots db' = stopSnapshots db then db' else db

def captureKey (db : Db) : Step → Option SnapshotKey
  | .operate op faults => if (op.perform ⟨db, faults⟩).1.toOption = some true then some op.key else none
  | .elsewhere _ => none

def run (db : Db) (steps : List Step) : Db := steps.foldl step db

def Current (db : Db) (key : SnapshotKey) : Prop :=
  (∃ p ∈ stopSnapshots db, keyOf p = key) ∧
    ∀ p ∈ stopSnapshots db, keyOf p = key → some (portfolioOf p) = portfolio db

end Operations

section Effects

variable {α β : Type} {did : α → Bool} {event : String} {time : Time} {s s' : Session Db}

/-- A snapshot of the portfolio is added under the key, or there is one under it already. -/
def Captured (event : String) (time : Time) (db db' : Db) : Prop :=
  (db'.snapshots = db.snapshots ∧ ∃ p ∈ db.snapshots, p.event = event ∧ keyOf p = (event, wholeSeconds time)) ∨
    ∃ p, db'.snapshots = db.snapshots ++ [p] ∧ p.event = event ∧ keyOf p = (event, wholeSeconds time) ∧
      some (portfolioOf p) = portfolio db'

/-- A computation takes a snapshot when it returns that it did, and else leaves the snapshots. -/
def Effect (did : α → Bool) (event : String) (time : Time) (db : Db) : Except Exc α × Session Db → Prop
  | (.ok a, s') => if did a then Captured event time db s'.db else s'.db.snapshots = db.snapshots
  | (.error _, s') => s'.db.snapshots = db.snapshots

theorem effect_pure {a : α} (h : did a = false) : Effect did event time s.db ((pure a : Query α) s) := by
  simp [Effect, pure, h]

theorem effect_bind_pure {m : Query α} {f : α → β} {did' : β → Bool} (h : Effect did event time s.db (m s))
    (hf : ∀ a, did' (f a) = did a) : Effect did' event time s.db ((m >>= fun a => pure (f a)) s) := by
  cases hrun : m s with
  | mk outcome t =>
    rw [hrun] at h
    cases outcome with
    | error exc =>
      rw [bind_of_error hrun]
      exact h
    | ok a =>
      rw [bind_of_ok hrun]
      simpa [Effect, pure, hf] using h

theorem insertOrGetPortfolioSnapshot_effect {row : PortfolioSnapshot} (hrow : some (portfolioOf row) = portfolio s.db) :
    Effect (fun _ => true) row.event row.evaluationTime s.db (insertOrGetPortfolioSnapshot row s) := by
  simp only [insertOrGetPortfolioSnapshot, execute, write]
  rw [read_bind]
  cases hfind : s.db.snapshots.find? (sameSnapshot row) with
  | none =>
    simp only [bind, flush_eq]
    split_ifs
    · exact rfl
    · exact .inr ⟨row, rfl, rfl, rfl, hrow⟩
  | some existing =>
    have hsame := List.find?_some hfind
    simp only [sameSnapshot, decide_eq_true_eq] at hsame
    obtain ⟨hevent, hsecond⟩ := hsame
    simp only [bind, flush_eq]
    split_ifs
    · exact rfl
    · exact .inl ⟨rfl, existing, List.mem_of_find?_eq_some hfind, hevent, by simp only [keyOf, hevent, hsecond]⟩

theorem effect_scope {m : Query α} (h : Effect did event time s.db (m s)) :
    Effect did event time s.db (scope m s) := by
  cases hrun : m s with
  | mk outcome t =>
    simp only [scope, hrun]
    rw [hrun] at h
    cases outcome with
    | error exc => exact rfl
    | ok a => exact h

theorem captureSnapshot_effect (event : String) (time : Time) (s : Session Db) :
    Effect (fun _ => true) event time s.db (captureSnapshot time event s) := by
  simp only [captureSnapshot, getWallet, getOpenPositions]
  rw [read_bind]
  cases hwallet : s.db.wallet with
  | none => exact rfl
  | some wallet =>
    simp only
    rw [read_bind]
    apply effect_scope (s := ⟨{ s.db with nextId := s.db.nextId + 1 }, s.faults⟩)
    apply insertOrGetPortfolioSnapshot_effect (s := ⟨{ s.db with nextId := s.db.nextId + 1 }, s.faults⟩)
    simp [portfolioOf, portfolio, hwallet]

theorem Effect.of_snapshots {db db' : Db} {r : Except Exc α × Session Db} (h : Effect did event time db r)
    (hsnapshots : db.snapshots = db'.snapshots) : Effect did event time db' r := by
  obtain ⟨outcome, s'⟩ := r
  cases outcome with
  | error exc => exact Eq.trans h hsnapshots
  | ok a =>
    simp only [Effect, Captured] at h ⊢
    rw [← hsnapshots]
    exact h

theorem effect_scope_capture {m : Query Bool} {done idle : α}
    (hm : ∀ (u u' : Session Db) made, m u = (.ok made, u') → u'.db.snapshots = u.db.snapshots)
    (hdone : did done) (hidle : did idle = false) :
    Effect did event time s.db ((do
      if ← scope m then do
        let _ ← captureSnapshot time event
        pure done
      else pure idle : Query α) s) := by
  cases hrun : scope m s with
  | mk outcome t =>
    cases outcome with
    | error exc =>
      rw [bind_of_error hrun]
      exact congrArg Db.snapshots (scope_error_db hrun)
    | ok made =>
      have hsnapshots := hm s t made (scope_eq_ok.mp hrun)
      rw [bind_of_ok hrun]
      cases made with
      | false => exact (effect_pure (s := t) hidle).of_snapshots hsnapshots
      | true =>
        apply Effect.of_snapshots _ hsnapshots
        exact effect_bind_pure (captureSnapshot_effect event time t) fun _ => hdone

theorem closeIfStopped_effect (config : PaperTradingConfig) (check : StopCheck) (position : PaperPosition)
    (candle : Candle) (processTime : Time) (constraints : Option SymbolConstraints) (s : Session Db) :
    Effect (·.closed) "position_close" processTime s.db
      (closeIfStopped config check position candle processTime constraints s) := by
  simp only [closeIfStopped]
  cases constraints with
  | none => exact effect_pure rfl
  | some constraints =>
    cases stopTrigger check candle (paperPositionToSimulated position) with
    | none => exact effect_pure rfl
    | some trigger =>
      apply effect_scope_capture _ rfl rfl
      intro u u' closed hexit
      cases persistExit_ok hexit with
      | inl hnothing =>
        obtain ⟨_, n, _, hdb⟩ := hnothing
        rw [hdb]
      | inr hexited =>
        obtain ⟨_, _, _, hdb⟩ := hexited
        rw [hdb]
        rfl

theorem updateTrailingStopOf_effect (evaluationTime : Time) (position : PaperPosition) (candle : Option Candle)
    (evaluationAtr : Option Decimal) (constraints : Option SymbolConstraints) (params : StrategyParameters)
    (s : Session Db) : Effect (·.updated) "trailing_stop_update" evaluationTime s.db
      (updateTrailingStopOf evaluationTime position candle evaluationAtr constraints params s) := by
  simp only [updateTrailingStopOf]
  cases candle with
  | none => exact effect_pure rfl
  | some candle =>
    cases constraints with
    | none => exact effect_pure rfl
    | some constraints =>
      simp only
      by_cases hclosed : candle.isClosed
      · simp only [hclosed, Bool.not_true, Bool.false_eq_true, if_false]
        cases computeTrailingStopUpdate (trailingState position) candle.close
            (evaluationAtr.getD position.entryAtr14) params constraints.priceTickSize with
        | error exc => exact rfl
        | ok updated =>
          by_cases hraised : updated.effectiveStop ≤ position.currentStop
          · change Effect _ _ _ _ ((if updated.effectiveStop ≤ position.currentStop then _ else _ : Query _) s)
            rw [if_pos hraised]
            exact effect_pure rfl
          · change Effect _ _ _ _ ((if updated.effectiveStop ≤ position.currentStop then _ else _ : Query _) s)
            rw [if_neg hraised]
            apply effect_scope_capture _ rfl rfl
            intro u u' made hraise
            cases persistRaisedStop_ok hraise with
            | inl hdb => rw [hdb]
            | inr hdb =>
              rw [hdb]
              rfl
      · simp only [hclosed, Bool.not_false, if_true]
        exact effect_pure rfl

theorem getOpenPositionForSymbol_effect {symbol : Symbol} {f : Option PaperPosition → Query α}
    (hf : ∀ position, Effect did event time s.db (f position s)) :
    Effect did event time s.db ((getOpenPositionForSymbol symbol >>= f) s) := by
  cases hopen : getOpenPositionForSymbol symbol s with
  | mk outcome t =>
    have hsame := getOpenPositionForSymbol_same hopen
    subst hsame
    cases outcome with
    | error exc =>
      rw [bind_of_error hopen]
      exact rfl
    | ok position =>
      rw [bind_of_ok hopen]
      exact hf position

theorem perform_effect (op : Operation) (s : Session Db) : Effect id op.event op.time s.db (op.perform s) := by
  cases op with
  | stopExit config check processTime candles constraintsBySymbol symbol =>
    have hclose : Effect (fun result => result.any (·.closed)) "position_close" processTime s.db
        (closeSymbolIfStopped config check processTime candles constraintsBySymbol symbol s) := by
      apply getOpenPositionForSymbol_effect
      intro position
      cases position with
      | none => exact effect_pure rfl
      | some position =>
        cases candles symbol with
        | none => exact effect_pure rfl
        | some candle => exact effect_bind_pure (closeIfStopped_effect ..) fun _ => rfl
    exact effect_bind_pure hclose fun _ => rfl
  | trailingUpdate evaluationTime dailyCandles evaluationAtrBySymbol constraintsBySymbol params symbol =>
    have hupdate : Effect (fun result => result.any (·.updated)) "trailing_stop_update" evaluationTime s.db
        (updateTrailingStopForSymbol evaluationTime dailyCandles evaluationAtrBySymbol constraintsBySymbol params
          symbol s) := by
      apply getOpenPositionForSymbol_effect
      intro position
      cases position with
      | none => exact effect_pure rfl
      | some position => exact effect_bind_pure (updateTrailingStopOf_effect ..) fun _ => rfl
    exact effect_bind_pure hupdate fun _ => rfl

end Effects

section Runs

def beforeStops (start : Db) : Db := { start with
  snapshots := start.snapshots.filter (!ofStops ·) }

theorem captured_of_key {db : Db} {s : Step} {key : SnapshotKey} (h : captureKey db s = some key) :
    (∃ op : Operation, op.key = key ∧ Captured op.event op.time db (step db s)) := by
  cases s with
  | elsewhere db' => cases h
  | operate op faults =>
    have heffect := perform_effect op ⟨db, faults⟩
    simp only [captureKey] at h
    split_ifs at h with hdone
    cases h
    refine ⟨op, rfl, ?_⟩
    simp only [step]
    cases hrun : op.perform ⟨db, faults⟩ with
    | mk outcome t =>
      rw [hrun] at heffect hdone
      cases outcome with
      | error exc => cases hdone
      | ok made =>
        cases hdone
        exact heffect

theorem stopSnapshots_of_no_key {db : Db} {s : Step} (h : captureKey db s = none) :
    stopSnapshots (step db s) = stopSnapshots db := by
  cases s with
  | elsewhere db' =>
    simp only [step]
    split_ifs with hsame
    · exact hsame
    · rfl
  | operate op faults =>
    have heffect := perform_effect op ⟨db, faults⟩
    simp only [captureKey, ite_eq_right_iff, reduceCtorEq, imp_false] at h
    simp only [step, stopSnapshots]
    cases hrun : op.perform ⟨db, faults⟩ with
    | mk outcome t =>
      rw [hrun] at heffect h
      cases outcome with
      | error exc => rw [show t.db.snapshots = db.snapshots from heffect]
      | ok made =>
        cases made with
        | true => exact absurd rfl h
        | false => rw [show t.db.snapshots = db.snapshots from heffect]

theorem ofStops_of_event {op : Operation} {p : PortfolioSnapshot} (h : p.event = op.event) : ofStops p := by
  cases op with
  | stopExit => simp [ofStops, h, Operation.event]
  | trailingUpdate => simp [ofStops, h, Operation.event]

def snapshotLog : Log Db Step SnapshotKey (Option Portfolio) where
  step := step
  key := captureKey
  view := portfolio
  rows db := (stopSnapshots db).map fun p => (keyOf p, some (portfolioOf p))
  captures := by
    intro db s key h
    obtain ⟨op, rfl, hcaptured⟩ := captured_of_key h
    cases hcaptured with
    | inl hthere =>
      obtain ⟨hsame, p, hp, hevent, hkey⟩ := hthere
      refine .inl ⟨by simp only [stopSnapshots, hsame], (keyOf p, some (portfolioOf p)), ?_, hkey⟩
      apply List.mem_map_of_mem
      exact List.mem_filter.mpr ⟨hp, ofStops_of_event hevent⟩
    | inr hadded =>
      obtain ⟨p, hsnapshots, hevent, hkey, hportfolio⟩ := hadded
      have hstop : [p].filter ofStops = [p] := by simp [ofStops_of_event hevent]
      refine .inr ?_
      simp only [stopSnapshots, hsnapshots, List.filter_append, hstop, List.map_append, List.map_cons, List.map_nil,
        hkey, hportfolio, Operation.key]
  idles := by
    intro db s h
    rw [stopSnapshots_of_no_key h]

theorem current_iff_current (db : Db) (key : SnapshotKey) : snapshotLog.Current db key ↔ Current db key := by
  simp [Log.Current, Current, snapshotLog]

/-- After every operation that takes a snapshot the stored one is current just when, whenever two operations take a
snapshot of one event within one second, the portfolio is the same after both. -/
theorem snapshots_follow_iff (start : Db) (steps : List Step) :
    (∀ past s rest key, steps = past ++ s :: rest → captureKey (run (beforeStops start) past) s = some key →
      Current (run (beforeStops start) (past ++ [s])) key) ↔
    ∀ past s between s' rest key, steps = past ++ s :: between ++ s' :: rest →
      captureKey (run (beforeStops start) past) s = some key →
      captureKey (run (beforeStops start) (past ++ s :: between)) s' = some key →
      portfolio (run (beforeStops start) (past ++ [s])) =
        portfolio (run (beforeStops start) (past ++ s :: between ++ [s'])) := by
  have hstart : snapshotLog.rows (beforeStops start) = [] := by
    simp only [snapshotLog, stopSnapshots, beforeStops, List.map_eq_nil_iff, List.filter_eq_nil_iff, List.mem_filter,
      Bool.not_eq_true']
    exact fun p hp => by simp [hp.2]
  have hiff := snapshotLog.current_iff hstart steps
  simp only [current_iff_current] at hiff
  exact hiff

end Runs

section Calls

variable {α β : Type} {f : α → Query β} {op : α → Operation} {did : β → Bool} {items : List α}

/-- The call is a run of the operation on the items; it ends early where one raises. -/
def IsRun (items : List α) (op : α → Operation) (call : Query β) : Prop :=
  ∀ s, ∃ faults : List (List Bool),
    run s.db (List.zipWith (fun item => .operate (op item)) items faults) = (call s).2.db ∧
      ((call s).1.isOk = true → faults.length = items.length)

theorem isRun_forEach (hop : ∀ item, (op item).perform = (f item >>= fun result => pure (did result))) :
    IsRun items op (forEach items f) := by
  intro s
  induction items generalizing s with
  | nil => exact ⟨[], rfl, fun _ => rfl⟩
  | cons item items ih =>
    cases hrun : f item s with
    | mk outcome t =>
      have hstep : step s.db (.operate (op item) s.faults) = t.db := by
        simp only [step, hop]
        rw [bind_pure_db, hrun]
      cases outcome with
      | error exc =>
        refine ⟨[s.faults], ?_⟩
        rw [forEach, bind_of_error hrun, List.zipWith_cons_cons, List.zipWith_nil_right]
        exact ⟨hstep, fun hok => by cases hok⟩
      | ok result =>
        obtain ⟨faults, hrest, hlength⟩ := ih t
        refine ⟨s.faults :: faults, ?_⟩
        rw [forEach, bind_of_ok hrun, bind_pure_db, ← hrest, ← hstep]
        refine ⟨rfl, fun hok => ?_⟩
        cases hloop : forEach items f t with
        | mk results u =>
          rw [hloop] at hlength
          cases results with
          | error exc =>
            rw [bind_of_error hloop] at hok
            cases hok
          | ok results => rw [List.length_cons, List.length_cons, hlength rfl]

theorem isRun_processStopTriggersForDailyCandle (config : PaperTradingConfig) (processTime : Time)
    (dailyCandles : BySymbol Candle) (constraintsBySymbol : BySymbol SymbolConstraints) (atOpen : Bool) :
    IsRun symbolProcessingOrder
      (.stopExit config (if atOpen then .atOpen else .fullCandle) processTime dailyCandles constraintsBySymbol)
      (processStopTriggersForDailyCandle config processTime dailyCandles constraintsBySymbol atOpen) :=
  isRun_forEach fun _ => rfl

theorem isRun_processIntradayStopTriggers (config : PaperTradingConfig) (processTime : Time)
    (previewCandles : BySymbol Candle) (constraintsBySymbol : BySymbol SymbolConstraints) :
    IsRun symbolProcessingOrder
      (.stopExit config .intradayOnly processTime (fun symbol => (previewCandles symbol).filter (!·.isClosed))
        constraintsBySymbol)
      (processIntradayStopTriggers config processTime previewCandles constraintsBySymbol) :=
  isRun_forEach fun _ => rfl

theorem isRun_updateDailyTrailingStops (evaluationTime : Time) (dailyCandles : BySymbol Candle)
    (evaluationAtrBySymbol : BySymbol Decimal) (constraintsBySymbol : BySymbol SymbolConstraints)
    (params : StrategyParameters) : IsRun symbolProcessingOrder
      (.trailingUpdate evaluationTime dailyCandles evaluationAtrBySymbol constraintsBySymbol params)
      (updateDailyTrailingStops evaluationTime dailyCandles evaluationAtrBySymbol constraintsBySymbol params) :=
  isRun_forEach fun _ => rfl

end Calls

section Sample

def longPosition (positionId : Id) (symbol : Symbol) : PaperPosition :=
  { positionId, symbol, status := .open_, quantity := 1, averageEntryPrice := 100, initialStop := 75, currentStop := 75
    highestCloseSinceEntry := 100, entryAtr14 := 10, marginReserved := 50, entryIntentId := positionId, openedAt := 0 }

def twoPositions : Db :=
  { wallet := some { cash := 1000 }
    positions := [longPosition 0 .BTC, longPosition 1 .ETH]
    nextId := 2 }

def gapCandle (symbol : Symbol) : Candle :=
  { symbol, timeframe := .daily, openTime := day, closeTime := 2 * day - second, openPrice := 60, high := 61, low := 50
    close := 55, volume := 1, isClosed := false }

def gapExit (symbol : Symbol) : Step :=
  .operate (.stopExit .defaults .atOpen day (fun symbol => some (gapCandle symbol)) (fun _ =>
    some { quantityStep := 1 / 1000, minimumQuantity := 1 / 1000, priceTickSize := 1 / 10 }) symbol) []

/-- One open closes two positions; the snapshot is that of the first close. -/
theorem second_exit_not_stored : ¬∀ (start : Db) (steps past : List Step) (s : Step) (rest : List Step)
    (key : SnapshotKey), steps = past ++ s :: rest → captureKey (run (beforeStops start) past) s = some key →
      Current (run (beforeStops start) (past ++ [s])) key := by
  intro h
  have hcurrent := (h twoPositions [gapExit .BTC, gapExit .ETH] [gapExit .BTC] (gapExit .ETH) []
    ("position_close", 86400) rfl (by decide +kernel)).2
  have hdiffers : ∃ p ∈ stopSnapshots (run (beforeStops twoPositions) ([gapExit .BTC] ++ [gapExit .ETH])),
      keyOf p = ("position_close", 86400) ∧
        some (portfolioOf p) ≠ portfolio (run (beforeStops twoPositions) ([gapExit .BTC] ++ [gapExit .ETH])) := by
    decide +kernel
  obtain ⟨p, hp, hkey, hne⟩ := hdiffers
  exact hne (hcurrent p hp hkey)

end Sample

end TradingBot.Paper.StopSnapshots
