import TradingBot.Paper.Effects
import TradingBot.Paper.SchedulerContext
import TradingBot.Paper.SignalParity

namespace TradingBot.Paper.IntentEvaluations

open Market.Models Strategy.Models Strategy.Engine Exceptions Library.Transaction Paper.Models Paper.Repository
open Paper.Effects Paper.Lifecycle Paper.SchedulerContext Paper.SignalParity Market.Bundle Market.Timeframes

section Claimed

structure Signals (e : StrategyEvaluationRecord) (i : TradeIntent) : Prop where
  kind : e.result.signalIntent.kind = .longEntry
  entryType : e.result.selectedEntryType = some i.signalType
  entryPrice : e.result.signalIntent.entryPrice = some i.requestedEntry
  stopInitial : e.result.signalIntent.stopInitial = some i.requestedStop

def Agrees (db : Db) : Prop :=
  ∀ i ∈ db.intents, (∃ e ∈ db.evaluations, e.evaluationId = i.strategyEvaluationId) ∧
    ∀ e ∈ db.evaluations, e.evaluationId = i.strategyEvaluationId → Signals e i

/-- The arguments of a call, with what the market data callback answers and the writes that fail. -/
structure EvaluateCall where
  config : PaperTradingConfig
  symbol : Symbol
  evaluationTime : Time
  ctx : EvaluationContext
  authorizationAt : Time
  ready : Bool
  faults : List Bool := []

def EvaluateCall.run (call : EvaluateCall) (db : Db) : Db :=
  (evaluateSymbolForDailyClose call.config call.symbol call.evaluationTime call.ctx call.authorizationAt call.ready
    ⟨db, call.faults⟩).2.db

/-- What the rest of the program never changes of an intent. -/
def signalOf (i : TradeIntent) : Id × EntryType × Decimal × Decimal :=
  (i.strategyEvaluationId, i.signalType, i.requestedEntry, i.requestedStop)

def Leaves (db db' : Db) : Prop :=
  db'.evaluations = db.evaluations ∧ db'.intents.map signalOf = db.intents.map signalOf ∧ db.nextId ≤ db'.nextId

instance (db db' : Db) : Decidable (Leaves db db') := inferInstanceAs (Decidable (_ ∧ _ ∧ _))

/-- A step of a run: a call, or other work on the database, which is stopped where it does more than it may. -/
inductive Step
  | evaluate (call : EvaluateCall)
  | elsewhere (db : Db)

def step (db : Db) : Step → Db
  | .evaluate call => call.run db
  | .elsewhere db' => if Leaves db db' then db' else db

def run (db : Db) (steps : List Step) : Db := steps.foldl step db

end Claimed

section Condition

structure Computes (call : EvaluateCall) (lastDaily : Candle) (result : StrategyEvaluation) : Prop where
  usable : call.ctx.bundle.isUsable
  last : call.ctx.bundle.daily.candles.getLast? = some lastDaily
  due : ¬call.evaluationTime < evaluationTimeForDaily lastDaily
  result : evaluate call.ctx.bundle.daily call.ctx.bundle.weekly call.ctx.bundle.monthly call.evaluationTime
    call.ctx.strategyParams = .ok result

def EvaluateCall.row (call : EvaluateCall) (evaluationId : Id) (lastDaily : Candle) (result : StrategyEvaluation) :
    StrategyEvaluationRecord where
  evaluationId
  symbol := call.symbol
  evaluationTime := call.evaluationTime
  result
  dailyCandleOpenTime := lastDaily.openTime
  weeklyCandleKey := lastOpenTime call.ctx.bundle.weekly lastDaily.openTime
  monthlyCandleKey := lastOpenTime call.ctx.bundle.monthly lastDaily.openTime
  strategyVersion := result.strategyVersion
  createdAt := call.evaluationTime

/-- The authorization of new risk under a runtime row. -/
def authorization (call : EvaluateCall) (db : Db) : EntryAuthorization :=
  match db.runtimeState with
  | none => { allowed := false, reasons := ["runtime_state_missing"] }
  | some runtime =>
    let reasons := authorizationReasons call.config call.ready call.authorizationAt runtime
    { allowed := reasons.isEmpty, reasons, paused := runtime.paused, killSwitch := runtime.killSwitch }

def blockedReasons (call : EvaluateCall) (db : Db) (result : StrategyEvaluation) : List String :=
  let auth := authorization call db
  let gates := { call.ctx.entryGates with
    entryReady := call.ctx.entryGates.entryReady && auth.allowed
    paused := auth.paused
    killSwitch := auth.killSwitch }
  (checkEntryGates gates result ++ auth.reasons).eraseDups

/-- The evaluation that an intent of the call is filed under: the one stored for the candle, or else the call's own. -/
def EvaluateCall.filed (call : EvaluateCall) (db : Db) (lastDaily : Candle) (result : StrategyEvaluation) :
    StrategyEvaluationRecord :=
  (db.evaluations.find? (sameEvaluation (call.row db.nextId lastDaily result))).getD (call.row db.nextId lastDaily result)

def Vacant (db : Db) (stored : StrategyEvaluationRecord) (result : StrategyEvaluation) : Prop :=
  ∀ signalType ∈ result.selectedEntryType, ∀ i ∈ db.intents,
    ¬(i.strategyEvaluationId = stored.evaluationId ∧ i.symbol = stored.symbol ∧ i.signalType = signalType) ∧
      i.idempotencyKey ≠ ⟨stored.symbol, result.strategyVersion, wholeSeconds stored.evaluationTime, signalType⟩

/-- The call gives an intent. -/
structure Schedules (call : EvaluateCall) (db : Db) (filed : StrategyEvaluationRecord) (result : StrategyEvaluation) :
    Prop where
  computed : ∃ lastDaily, Computes call lastDaily result ∧ call.filed db lastDaily result = filed
  entry : result.signalIntent.kind = .longEntry
  asserted : result.selectedEntryType.isSome ∧ (result.signalIntent.entryPrice.bind numericMoney).isSome ∧
    (result.signalIntent.stopInitial.bind numericMoney).isSome
  unblocked : blockedReasons call db result = []
  vacant : Vacant db filed result
  written : call.faults.head? ≠ some true ∧ call.faults.tail.head? ≠ some true

/-- An evaluation has the signal of another one, its prices as the columns keep them. -/
structure SameSignal (e result : StrategyEvaluation) : Prop where
  kind : e.signalIntent.kind = result.signalIntent.kind
  entryType : e.selectedEntryType = result.selectedEntryType
  entryPrice : e.signalIntent.entryPrice = result.signalIntent.entryPrice.bind numericMoney
  stopInitial : e.signalIntent.stopInitial = result.signalIntent.stopInitial.bind numericMoney

end Condition

section Queries

variable {call : EvaluateCall} {s s' : Session Db} {stored : StrategyEvaluationRecord} {result : StrategyEvaluation}

/-- An intent with the signal or the key of a new one. -/
def hasIntent (db : Db) (row : TradeIntent) : Bool :=
  (db.intents.find? (sameSignal row)).isSome || db.intents.any (·.idempotencyKey = row.idempotencyKey)

def newIntent (call : EvaluateCall) (db : Db) (intentId : Id) (stored : StrategyEvaluationRecord)
    (result : StrategyEvaluation) : Option TradeIntent :=
  if blockedReasons call db result ≠ [] then none
  else match result.selectedEntryType, result.signalIntent.entryPrice, result.signalIntent.stopInitial with
    | some signalType, some entryPrice, some stopInitial => do
      let row ← intentColumns
        (scheduledIntent intentId stored result signalType entryPrice stopInitial call.evaluationTime)
      if hasIntent db row then none else some row
    | _, _, _ => none

theorem insertOrGetStrategyEvaluation_eq (row : StrategyEvaluationRecord) (s : Session Db) :
    insertOrGetStrategyEvaluation row s =
      if s.faults.head? = some true then (.error .databaseError, { s with faults := s.faults.tail })
      else match s.db.evaluations.find? (sameEvaluation row) with
        | some existing => (.ok (existing, false), { s with faults := s.faults.tail })
        | none => (.ok (row, true), ⟨{ s.db with evaluations := s.db.evaluations ++ [row] }, s.faults.tail⟩) := by
  simp only [insertOrGetStrategyEvaluation, execute, write]
  rw [read_bind]
  cases hfind : s.db.evaluations.find? (sameEvaluation row) with
  | none =>
    simp only [bind, flush_eq]
    split_ifs
    · rfl
    · rfl
  | some existing =>
    simp only [bind, flush_eq]
    split_ifs
    · rfl
    · rfl

theorem authorization_eq (call : EvaluateCall) (s : Session Db) :
    evaluateFinalEntryAuthorization call.config call.ready call.authorizationAt s =
      (.ok (authorization call s.db), s) := by
  simp only [evaluateFinalEntryAuthorization, getRuntimeState, authorization]
  rw [read_bind]
  cases s.db.runtimeState with
  | none => rfl
  | some runtime => rfl

theorem intentColumns_scheduled (intentId : Id) (stored : StrategyEvaluationRecord) (result : StrategyEvaluation)
    (signalType : EntryType) (entryPrice stopInitial : Decimal) (createdAt : Time) :
    intentColumns (scheduledIntent intentId stored result signalType entryPrice stopInitial createdAt) =
      (numericMoney entryPrice).bind fun entry => (numericMoney stopInitial).bind fun stop =>
        some (scheduledIntent intentId stored result signalType entry stop createdAt) := rfl

theorem insertOrGetTradeIntent_new {row intent : TradeIntent} (hcolumns : intentColumns row = some intent)
    (hnew : hasIntent s.db intent = false) : insertOrGetTradeIntent row s =
      if s.faults.head? = some true then (.error .databaseError, { s with faults := s.faults.tail })
      else (.ok (intent, true), ⟨{ s.db with intents := s.db.intents ++ [intent] }, s.faults.tail⟩) := by
  obtain ⟨hfound, hkey⟩ := Bool.or_eq_false_iff.mp hnew
  have hnone := Option.isNone_iff_eq_none.mp (Option.isSome_eq_false_iff.mp hfound)
  unfold insertOrGetTradeIntent
  simp only [hcolumns, execute, write]
  rw [read_bind, hnone]
  simp only
  rw [read_bind, hkey]
  have hrequire : require (!false) (.integrityError "trade_intents_idempotency_key_key") s = (.ok (), s) := rfl
  rw [bind_of_ok hrequire]
  simp only [bind, flush_eq]
  split_ifs
  · rfl
  · rfl

theorem insertOrGetTradeIntent_old {row intent : TradeIntent} {r : TradeIntent × Bool}
    (h : insertOrGetTradeIntent row s = (.ok r, s')) (hcolumns : intentColumns row = some intent)
    (hold : hasIntent s.db intent) : s'.db = s.db := by
  unfold insertOrGetTradeIntent at h
  simp only [hcolumns] at h
  rw [read_bind] at h
  cases hfind : s.db.intents.find? (sameSignal intent) with
  | none =>
    rw [hfind] at h
    simp only [hasIntent, hfind, Option.isSome_none, Bool.false_or] at h hold
    rw [read_bind, hold] at h
    obtain ⟨htrue, _⟩ := require_bind_eq_ok.mp h
    cases htrue
  | some existing =>
    rw [hfind] at h
    obtain ⟨_, t, hflush, hpure⟩ := bind_eq_ok.mp h
    cases hpure
    exact flush_ok_db hflush

def EvaluateCall.create (call : EvaluateCall) (stored : StrategyEvaluationRecord) (result : StrategyEvaluation) :
    Query (Option TradeIntent × Bool × List String) :=
  createIntentFromEvaluation call.config stored result call.ctx.entryGates call.evaluationTime call.authorizationAt
    call.ready

theorem newIntent_cases {db : Db} {intentId : Id} {intent : TradeIntent}
    (h : newIntent call db intentId stored result = some intent) : blockedReasons call db result = [] ∧
      ∃ signalType entryPrice stopInitial, result.selectedEntryType = some signalType ∧
        result.signalIntent.entryPrice = some entryPrice ∧ result.signalIntent.stopInitial = some stopInitial ∧
        intentColumns (scheduledIntent intentId stored result signalType entryPrice stopInitial call.evaluationTime) =
          some intent ∧ hasIntent db intent = false := by
  simp only [newIntent] at h
  split_ifs at h with hblocked
  refine ⟨not_not.mp hblocked, ?_⟩
  cases htype : result.selectedEntryType with
  | none => simp [htype] at h
  | some signalType =>
    cases hprice : result.signalIntent.entryPrice with
    | none => simp [htype, hprice] at h
    | some entryPrice =>
      cases hstop : result.signalIntent.stopInitial with
      | none => simp [htype, hprice, hstop] at h
      | some stopInitial =>
        simp only [htype, hprice, hstop] at h
        obtain ⟨row, hcolumns, h⟩ := Option.bind_eq_some_iff.mp h
        split_ifs at h with hold
        cases h
        exact ⟨signalType, entryPrice, stopInitial, rfl, rfl, rfl, hcolumns, Bool.eq_false_iff.mpr hold⟩

theorem create_new {intent : TradeIntent} (h : newIntent call s.db s.db.nextId stored result = some intent) :
    call.create stored result s =
      if s.faults.head? = some true then
        (.error .databaseError, ⟨{ s.db with nextId := s.db.nextId + 1 }, s.faults.tail⟩)
      else (.ok (some intent, true, []), ⟨{ s.db with
        nextId := s.db.nextId + 1
        intents := s.db.intents ++ [intent] }, s.faults.tail⟩) := by
  obtain ⟨hblocked, signalType, entryPrice, stopInitial, htype, hprice, hstop, hcolumns, hnew⟩ := newIntent_cases h
  simp only [EvaluateCall.create, createIntentFromEvaluation]
  rw [bind_of_ok (authorization_eq call s)]
  simp only [blockedReasons] at hblocked
  simp only [hblocked, ne_eq, not_true_eq_false, if_false, htype, hprice, hstop]
  have hid : newId s = (.ok s.db.nextId, ⟨{ s.db with nextId := s.db.nextId + 1 }, s.faults⟩) := rfl
  have hinsert := insertOrGetTradeIntent_new
    (s := ⟨{ s.db with nextId := s.db.nextId + 1 }, s.faults⟩) hcolumns hnew
  rw [bind_of_ok hid]
  simp only [bind, hinsert]
  split_ifs
  · rfl
  · rfl

theorem vacant_iff {db : Db} {signalType : EntryType} (htype : result.selectedEntryType = some signalType)
    (intentId : Id) (entryPrice stopInitial : Decimal) (createdAt : Time) :
    let row := scheduledIntent intentId stored result signalType entryPrice stopInitial createdAt
    Vacant db stored result ↔ ¬hasIntent db row := by
  simp only [Vacant, hasIntent, htype, Option.mem_some_iff, forall_eq', Bool.or_eq_true, not_or, Bool.not_eq_true,
    Option.isSome_eq_false_iff, Option.isNone_iff_eq_none, List.find?_eq_none, List.any_eq_false, sameSignal,
    scheduledIntent, decide_eq_true_eq, ne_eq, forall_and]
  constructor
  · rintro ⟨hsignal, hkey⟩
    exact ⟨fun i hi h => hsignal i hi ⟨h.1.symm, h.2.1.symm, h.2.2.symm⟩, fun i hi => decide_eq_false (hkey i hi)⟩
  · rintro ⟨hsignal, hkey⟩
    exact ⟨fun i hi h => hsignal i hi ⟨h.1.symm, h.2.1.symm, h.2.2.symm⟩, fun i hi => of_decide_eq_false (hkey i hi)⟩

theorem newIntent_isSome_iff {db : Db} {intentId : Id} : (newIntent call db intentId stored result).isSome ↔
    blockedReasons call db result = [] ∧ (result.selectedEntryType.isSome ∧
      (result.signalIntent.entryPrice.bind numericMoney).isSome ∧
      (result.signalIntent.stopInitial.bind numericMoney).isSome) ∧ Vacant db stored result := by
  by_cases hblocked : blockedReasons call db result = []
  · simp only [newIntent, hblocked, ne_eq, not_true_eq_false, if_false, true_and]
    cases htype : result.selectedEntryType with
    | none => simp
    | some signalType =>
      cases hprice : result.signalIntent.entryPrice with
      | none => simp
      | some entryPrice =>
        cases hstop : result.signalIntent.stopInitial with
        | none => simp
        | some stopInitial =>
          simp only [intentColumns_scheduled, Option.bind_some]
          cases hentry : numericMoney entryPrice with
          | none => simp
          | some entry =>
            cases hkept : numericMoney stopInitial with
            | none => simp
            | some stop =>
              simp only [bind, Option.bind_some, Option.isSome_some, true_and,
                vacant_iff htype intentId entry stop call.evaluationTime]
              split_ifs with hold
              · simp only [Option.isSome_none, Bool.false_eq_true, false_iff, not_not]
                exact hold
              · simp only [Option.isSome_some, true_iff]
                exact hold
  · simp [newIntent, hblocked]

theorem newIntent_eq_some {db : Db} {intentId : Id} {intent : TradeIntent}
    (h : newIntent call db intentId stored result = some intent) :
    result.selectedEntryType = some intent.signalType ∧
      result.signalIntent.entryPrice.bind numericMoney = some intent.requestedEntry ∧
      result.signalIntent.stopInitial.bind numericMoney = some intent.requestedStop ∧
      intent.strategyEvaluationId = stored.evaluationId := by
  obtain ⟨_, signalType, entryPrice, stopInitial, htype, hprice, hstop, hcolumns, _⟩ := newIntent_cases h
  obtain ⟨entry, stop, hentry, hkept, rfl⟩ := intentColumns_eq_some hcolumns
  rw [htype, hprice, hstop]
  exact ⟨rfl, hentry, hkept, rfl⟩

theorem create_old {r : Option TradeIntent × Bool × List String}
    (h : newIntent call s.db s.db.nextId stored result = none) (hcreate : call.create stored result s = (.ok r, s')) :
    s'.db.intents = s.db.intents ∧ s'.db.evaluations = s.db.evaluations ∧ s.db.nextId ≤ s'.db.nextId := by
  simp only [EvaluateCall.create, createIntentFromEvaluation] at hcreate
  rw [bind_of_ok (authorization_eq call s)] at hcreate
  by_cases hblocked : blockedReasons call s.db result = []
  · simp only [newIntent, hblocked, ne_eq, not_true_eq_false, if_false] at h
    simp only [blockedReasons] at hblocked
    simp only [hblocked, ne_eq, not_true_eq_false, if_false] at hcreate
    cases htype : result.selectedEntryType with
    | none =>
      simp only [htype] at hcreate
      cases hcreate
    | some signalType =>
      cases hprice : result.signalIntent.entryPrice with
      | none =>
        simp only [htype, hprice] at hcreate
        cases hcreate
      | some entryPrice =>
        cases hstop : result.signalIntent.stopInitial with
        | none =>
          simp only [htype, hprice, hstop] at hcreate
          cases hcreate
        | some stopInitial =>
          simp only [htype, hprice, hstop] at h hcreate
          obtain ⟨inserted, t, hinsert, hpure⟩ := bind_eq_ok.mp (newId_bind_eq_ok.mp hcreate)
          cases hpure
          obtain ⟨row, hcolumns, _⟩ := insertOrGetTradeIntent_ok hinsert
          simp only [hcolumns, bind, Option.bind_some] at h
          split_ifs at h with hold
          rw [insertOrGetTradeIntent_old hinsert hcolumns hold]
          exact ⟨rfl, rfl, Nat.le_succ _⟩
  · simp only [blockedReasons] at hblocked
    simp only [hblocked, ne_eq, not_false_eq_true, if_true] at hcreate
    cases hcreate
    exact ⟨rfl, rfl, le_rfl⟩

theorem create_cases {r : Option TradeIntent × Bool × List String}
    (hcreate : call.create stored result s = (.ok r, s')) :
    s'.db.evaluations = s.db.evaluations ∧ s.db.nextId ≤ s'.db.nextId ∧ (s'.db.intents = s.db.intents ∨
      ∃ intent, newIntent call s.db s.db.nextId stored result = some intent ∧ s.faults.head? ≠ some true ∧
        s'.db.intents = s.db.intents ++ [intent]) := by
  cases hnew : newIntent call s.db s.db.nextId stored result with
  | none =>
    obtain ⟨hintents, hevaluations, hid⟩ := create_old hnew hcreate
    exact ⟨hevaluations, hid, .inl hintents⟩
  | some intent =>
    have hcreated := create_new hnew
    rw [hcreate] at hcreated
    by_cases hfault : s.faults.head? = some true
    · simp only [hfault, if_true] at hcreated
      cases hcreated
    · simp only [hfault, if_false] at hcreated
      cases hcreated
      exact ⟨rfl, Nat.le_succ _, .inr ⟨intent, rfl, hfault, rfl⟩⟩

end Queries

section Calls

variable {call : EvaluateCall} {db : Db}

/-- The transaction of a call, once its evaluation is computed. -/
def EvaluateCall.record (call : EvaluateCall) (lastDaily : Candle) (result : StrategyEvaluation) (db : Db) :
    Query EvaluationResult :=
  scope (recordEvaluation call.config (call.row db.nextId lastDaily result) call.ctx.entryGates call.authorizationAt
    call.ready)

theorem run_computes {lastDaily : Candle} {result : StrategyEvaluation} (h : Computes call lastDaily result) :
    call.run db = (call.record lastDaily result db ⟨{ db with nextId := db.nextId + 1 }, call.faults⟩).2.db := by
  simp only [EvaluateCall.run, evaluateSymbolForDailyClose, h.usable, h.last, h.due, h.result, Bool.not_true]
  rfl

theorem run_of_not_computes (h : ∀ lastDaily result, ¬Computes call lastDaily result) : call.run db = db := by
  simp only [EvaluateCall.run, evaluateSymbolForDailyClose]
  by_cases husable : call.ctx.bundle.isUsable
  · simp only [husable, Bool.not_true, Bool.false_eq_true, if_false]
    cases hlast : call.ctx.bundle.daily.candles.getLast? with
    | none => rfl
    | some lastDaily =>
      simp only
      by_cases hearly : call.evaluationTime < evaluationTimeForDaily lastDaily
      · simp only [hearly, if_true]
        rfl
      · simp only [hearly, if_false]
        cases hresult : evaluate call.ctx.bundle.daily call.ctx.bundle.weekly call.ctx.bundle.monthly
            call.evaluationTime call.ctx.strategyParams with
        | error exc => rfl
        | ok result => exact absurd ⟨husable, hlast, hearly, hresult⟩ (h lastDaily result)
  · simp only [Bool.not_eq_true] at husable
    simp only [husable, Bool.not_false, if_true]
    rfl

/-- The database once the evaluation of the call is stored. -/
def EvaluateCall.filedDb (call : EvaluateCall) (lastDaily : Candle) (result : StrategyEvaluation) (db : Db) : Db :=
  { db with
    nextId := db.nextId + 1
    evaluations := if (db.evaluations.find? (sameEvaluation (call.row db.nextId lastDaily result))).isSome then
        db.evaluations
      else db.evaluations ++ [call.row db.nextId lastDaily result] }

def Records (db db' : Db) : Prop :=
  db'.intents = db.intents ∧ db.nextId ≤ db'.nextId ∧ (db'.evaluations = db.evaluations ∨
    ∃ row, row.evaluationId = db.nextId ∧ db'.evaluations = db.evaluations ++ [row] ∧ db.nextId < db'.nextId)

def Adds (db db' : Db) (filed : StrategyEvaluationRecord) (result : StrategyEvaluation) : Prop :=
  filed ∈ db.evaluations ∧ db'.evaluations = db.evaluations ∧ db.nextId ≤ db'.nextId ∧
    ∃ intent, db'.intents = db.intents ++ [intent] ∧ result.selectedEntryType = some intent.signalType ∧
      result.signalIntent.entryPrice.bind numericMoney = some intent.requestedEntry ∧
      result.signalIntent.stopInitial.bind numericMoney = some intent.requestedStop ∧
      intent.strategyEvaluationId = filed.evaluationId

theorem Records.unchanged (db : Db) : Records db db := ⟨rfl, le_rfl, .inl rfl⟩

theorem Records.same {db' db'' : Db} (h : Records db db') (hintents : db''.intents = db'.intents)
    (hevaluations : db''.evaluations = db'.evaluations) (hid : db'.nextId ≤ db''.nextId) : Records db db'' := by
  obtain ⟨hsame, hle, hrows⟩ := h
  rw [← hintents] at hsame
  rw [← hevaluations] at hrows
  refine ⟨hsame, hle.trans hid, ?_⟩
  cases hrows with
  | inl hrows => exact .inl hrows
  | inr hrows =>
    obtain ⟨row, hrow, hrows, hlt⟩ := hrows
    exact .inr ⟨row, hrow, hrows, hlt.trans_le hid⟩

theorem records_filedDb (call : EvaluateCall) (lastDaily : Candle) (result : StrategyEvaluation) (db : Db) :
    Records db (call.filedDb lastDaily result db) := by
  refine ⟨rfl, Nat.le_succ _, ?_⟩
  simp only [EvaluateCall.filedDb]
  split_ifs
  · exact .inl rfl
  · exact .inr ⟨_, rfl, rfl, Nat.lt_succ_self _⟩

theorem filed_mem (call : EvaluateCall) (lastDaily : Candle) (result : StrategyEvaluation) (db : Db) :
    call.filed db lastDaily result ∈ (call.filedDb lastDaily result db).evaluations := by
  simp only [EvaluateCall.filed, EvaluateCall.filedDb]
  cases hfind : db.evaluations.find? (sameEvaluation (call.row db.nextId lastDaily result)) with
  | none => simp
  | some stored => simpa using List.mem_of_find?_eq_some hfind

theorem insert_filed (lastDaily : Candle) (result : StrategyEvaluation) (hwrite : call.faults.head? ≠ some true) :
    insertOrGetStrategyEvaluation (call.row db.nextId lastDaily result)
        ⟨{ db with nextId := db.nextId + 1 }, call.faults⟩ =
      (.ok (call.filed db lastDaily result,
          (db.evaluations.find? (sameEvaluation (call.row db.nextId lastDaily result))).isNone),
        ⟨call.filedDb lastDaily result db, call.faults.tail⟩) := by
  rw [insertOrGetStrategyEvaluation_eq, if_neg hwrite]
  simp only [EvaluateCall.filed, EvaluateCall.filedDb]
  cases db.evaluations.find? (sameEvaluation (call.row db.nextId lastDaily result)) with
  | none => rfl
  | some stored => rfl

theorem record_entry {lastDaily : Candle} {result : StrategyEvaluation}
    (hsignal : result.signalIntent.kind = .longEntry) (hwrite : call.faults.head? ≠ some true) :
    recordEvaluation call.config (call.row db.nextId lastDaily result) call.ctx.entryGates call.authorizationAt
        call.ready ⟨{ db with nextId := db.nextId + 1 }, call.faults⟩ =
      (do
        let (intent, intentCreated, blocked) ← call.create (call.filed db lastDaily result) result
        pure ⟨call.filed db lastDaily result,
          (db.evaluations.find? (sameEvaluation (call.row db.nextId lastDaily result))).isNone, intent,
          intentCreated, blocked⟩ : Query EvaluationResult) ⟨call.filedDb lastDaily result db, call.faults.tail⟩ := by
  have hentry : (call.row db.nextId lastDaily result).result.signalIntent.kind = .longEntry := hsignal
  simp only [recordEvaluation]
  rw [bind_of_ok (insert_filed lastDaily result hwrite)]
  simp only [if_pos hentry]
  rfl

theorem run_schedules {filed : StrategyEvaluationRecord} {result : StrategyEvaluation}
    (h : Schedules call db filed result) : ∃ mid, Records db mid ∧ Adds mid (call.run db) filed result := by
  obtain ⟨lastDaily, hcomputes, rfl⟩ := h.computed
  obtain ⟨hfirst, hsecond⟩ := h.written
  have hsome : (newIntent call db (db.nextId + 1) (call.filed db lastDaily result) result).isSome :=
    newIntent_isSome_iff.mpr ⟨h.unblocked, h.asserted, h.vacant⟩
  obtain ⟨intent, hnew⟩ := Option.isSome_iff_exists.mp hsome
  have hcreate := create_new (s := ⟨call.filedDb lastDaily result db, call.faults.tail⟩) hnew
  simp only [hsecond, if_false] at hcreate
  refine ⟨call.filedDb lastDaily result db, records_filedDb call lastDaily result db, ?_⟩
  rw [run_computes hcomputes]
  simp only [EvaluateCall.record, scope, record_entry h.entry hfirst]
  rw [bind_of_ok hcreate]
  exact ⟨filed_mem call lastDaily result db, rfl, Nat.le_succ _, intent, rfl, newIntent_eq_some hnew⟩

theorem record_cases {lastDaily : Candle} {result : StrategyEvaluation} {r : EvaluationResult} {s' : Session Db}
    (hcomputes : Computes call lastDaily result)
    (h : recordEvaluation call.config (call.row db.nextId lastDaily result) call.ctx.entryGates call.authorizationAt
      call.ready ⟨{ db with nextId := db.nextId + 1 }, call.faults⟩ = (.ok r, s')) :
    Records db s'.db ∨ Schedules call db (call.filed db lastDaily result) result ∧
      Adds (call.filedDb lastDaily result db) s'.db (call.filed db lastDaily result) result := by
  by_cases hwrite : call.faults.head? = some true
  · have hinsert := insertOrGetStrategyEvaluation_eq (call.row db.nextId lastDaily result)
      ⟨{ db with nextId := db.nextId + 1 }, call.faults⟩
    simp only [hwrite, if_true] at hinsert
    simp only [recordEvaluation] at h
    obtain ⟨inserted, t, hrow, _⟩ := bind_eq_ok.mp h
    rw [hrow] at hinsert
    cases hinsert
  have hrecords := records_filedDb call lastDaily result db
  by_cases hsignal : result.signalIntent.kind = .longEntry
  · rw [record_entry hsignal hwrite] at h
    obtain ⟨made, t', hcreate, hpure⟩ := bind_eq_ok.mp h
    cases hpure
    obtain ⟨hevaluations, hid, hintents⟩ := create_cases hcreate
    cases hintents with
    | inl hsame => exact .inl (hrecords.same hsame hevaluations hid)
    | inr hadded =>
      obtain ⟨intent, hnew, hsecond, hintents⟩ := hadded
      have hsome : (newIntent call db (db.nextId + 1) (call.filed db lastDaily result) result).isSome :=
        Option.isSome_iff_exists.mpr ⟨intent, hnew⟩
      obtain ⟨hunblocked, hasserted, hvacant⟩ := newIntent_isSome_iff.mp hsome
      have hschedules : Schedules call db (call.filed db lastDaily result) result :=
        ⟨⟨lastDaily, hcomputes, rfl⟩, hsignal, hasserted, hunblocked, hvacant, hwrite, hsecond⟩
      exact .inr ⟨hschedules, filed_mem call lastDaily result db, hevaluations, hid, intent, hintents,
        newIntent_eq_some hnew⟩
  · have hentry : ¬(call.row db.nextId lastDaily result).result.signalIntent.kind = .longEntry := hsignal
    simp only [recordEvaluation] at h
    rw [bind_of_ok (insert_filed lastDaily result hwrite)] at h
    simp only [if_neg hentry] at h
    cases h
    exact .inl hrecords

theorem run_cases (call : EvaluateCall) (db : Db) :
    Records db (call.run db) ∨ ∃ filed result, Schedules call db filed result ∧
      ∃ mid, Records db mid ∧ Adds mid (call.run db) filed result := by
  by_cases hcomputes : ∃ lastDaily result, Computes call lastDaily result
  · obtain ⟨lastDaily, result, hcomputes⟩ := hcomputes
    rw [run_computes hcomputes]
    cases hrun : call.record lastDaily result db ⟨{ db with nextId := db.nextId + 1 }, call.faults⟩ with
    | mk outcome s' =>
      cases outcome with
      | error exc =>
        have hdb := scope_error_db hrun
        simp only [hdb]
        exact .inl ⟨rfl, Nat.le_succ _, .inl rfl⟩
      | ok r =>
        cases record_cases hcomputes (scope_eq_ok.mp hrun) with
        | inl hrecords => exact .inl hrecords
        | inr hadds =>
          obtain ⟨hschedules, hadds⟩ := hadds
          exact .inr ⟨_, result, hschedules, _, records_filedDb call lastDaily result db, hadds⟩
  · have hnone : ∀ lastDaily result, ¬Computes call lastDaily result :=
      fun lastDaily result hc => hcomputes ⟨lastDaily, result, hc⟩
    rw [run_of_not_computes hnone]
    exact .inl (Records.unchanged db)

end Calls

section Runs

variable {db db' : Db}

structure Referenced (db : Db) : Prop where
  unique : ∀ e ∈ db.evaluations, ∀ e' ∈ db.evaluations, e.evaluationId = e'.evaluationId → e = e'
  below : ∀ e ∈ db.evaluations, e.evaluationId < db.nextId
  references : ∀ i ∈ db.intents, ∃ e ∈ db.evaluations, e.evaluationId = i.strategyEvaluationId

theorem exists_signalOf {i' : TradeIntent} (h : Leaves db db') (hi : i' ∈ db'.intents) :
    ∃ i ∈ db.intents, signalOf i = signalOf i' := by
  have hmem : signalOf i' ∈ db'.intents.map signalOf := List.mem_map_of_mem hi
  rw [h.2.1] at hmem
  exact List.mem_map.mp hmem

theorem Signals.of_signalOf {e : StrategyEvaluationRecord} {i i' : TradeIntent} (h : signalOf i = signalOf i')
    (hi : Signals e i) : Signals e i' := by
  simp only [signalOf, Prod.mk.injEq] at h
  obtain ⟨_, htype, hentry, hstop⟩ := h
  exact ⟨hi.kind, htype ▸ hi.entryType, hentry ▸ hi.entryPrice, hstop ▸ hi.stopInitial⟩

theorem Referenced.leaves (hdb : Referenced db) (h : Leaves db db') : Referenced db' := by
  constructor
  · rw [h.1]
    exact hdb.unique
  · rw [h.1]
    exact fun e he => lt_of_lt_of_le (hdb.below e he) h.2.2
  · intro i' hi'
    obtain ⟨i, hi, hsignal⟩ := exists_signalOf h hi'
    have hid : i.strategyEvaluationId = i'.strategyEvaluationId := congrArg Prod.fst hsignal
    rw [h.1, ← hid]
    exact hdb.references i hi

theorem Agrees.leaves (hdb : Agrees db) (h : Leaves db db') : Agrees db' := by
  intro i' hi'
  obtain ⟨i, hi, hsignal⟩ := exists_signalOf h hi'
  have hid : i.strategyEvaluationId = i'.strategyEvaluationId := congrArg Prod.fst hsignal
  obtain ⟨hexists, hall⟩ := hdb i hi
  rw [h.1, ← hid]
  exact ⟨hexists, fun e he hreference => (hall e he hreference).of_signalOf hsignal⟩

theorem Referenced.records (hdb : Referenced db) (h : Records db db') : Referenced db' := by
  obtain ⟨hintents, hid, hevaluations | ⟨row, hrow, hevaluations, hlt⟩⟩ := h
  · constructor
    · rw [hevaluations]
      exact hdb.unique
    · rw [hevaluations]
      exact fun e he => lt_of_lt_of_le (hdb.below e he) hid
    · rw [hevaluations, hintents]
      exact hdb.references
  have hfresh : ∀ e ∈ db.evaluations, e.evaluationId ≠ row.evaluationId :=
    fun e he => hrow ▸ (hdb.below e he).ne
  constructor
  · intro e he e' he' heq
    rw [hevaluations, List.mem_append, List.mem_singleton] at he he'
    cases he with
    | inl he =>
      cases he' with
      | inl he' => exact hdb.unique e he e' he' heq
      | inr he' =>
        subst he'
        exact absurd heq (hfresh e he)
    | inr he =>
      subst he
      cases he' with
      | inl he' => exact absurd heq.symm (hfresh e' he')
      | inr he' => exact he'.symm
  · intro e he
    rw [hevaluations, List.mem_append, List.mem_singleton] at he
    cases he with
    | inl he => exact (hdb.below e he).trans hlt
    | inr he =>
      subst he
      rw [hrow]
      exact hlt
  · intro i hi
    rw [hintents] at hi
    obtain ⟨e, he, hreference⟩ := hdb.references i hi
    exact ⟨e, hevaluations ▸ List.mem_append_left _ he, hreference⟩

theorem Agrees.records (hdb : Referenced db) (hagrees : Agrees db) (h : Records db db') : Agrees db' := by
  have hreferenced := hdb.records h
  obtain ⟨hintents, _, hevaluations⟩ := h
  intro i hi
  refine ⟨hreferenced.references i hi, fun e he hid => ?_⟩
  rw [hintents] at hi
  cases hevaluations with
  | inl hevaluations => exact (hagrees i hi).2 e (hevaluations ▸ he) hid
  | inr hrecorded =>
    obtain ⟨row, hrow, hevaluations, _⟩ := hrecorded
    rw [hevaluations, List.mem_append, List.mem_singleton] at he
    cases he with
    | inl he => exact (hagrees i hi).2 e he hid
    | inr he =>
      subst he
      obtain ⟨e', he', hreference⟩ := hdb.references i hi
      have hbelow := hdb.below e' he'
      rw [hreference, ← hid, hrow] at hbelow
      exact absurd hbelow (lt_irrefl _)

theorem Referenced.adds {filed : StrategyEvaluationRecord} {result : StrategyEvaluation} (hdb : Referenced db)
    (h : Adds db db' filed result) : Referenced db' := by
  obtain ⟨hfiled, hevaluations, hid, intent, hintents, _, _, _, hreference⟩ := h
  constructor
  · rw [hevaluations]
    exact hdb.unique
  · rw [hevaluations]
    exact fun e he => lt_of_lt_of_le (hdb.below e he) hid
  · intro i hi
    rw [hintents, List.mem_append, List.mem_singleton] at hi
    rw [hevaluations]
    cases hi with
    | inl hi => exact hdb.references i hi
    | inr hi =>
      subst hi
      exact ⟨filed, hfiled, hreference.symm⟩

theorem agrees_adds_iff {filed : StrategyEvaluationRecord} {result : StrategyEvaluation} (hdb : Referenced db)
    (hagrees : Agrees db) (hentry : result.signalIntent.kind = .longEntry) (h : Adds db db' filed result) :
    Agrees db' ↔ SameSignal filed.result result := by
  have hreferenced := hdb.adds h
  obtain ⟨hfiled, hevaluations, _, intent, hintents, htype, hprice, hstop, hreference⟩ := h
  constructor
  · intro hagrees'
    have hmem : intent ∈ db'.intents := hintents ▸ List.mem_append_right _ (List.mem_singleton.mpr rfl)
    have hsignals := (hagrees' intent hmem).2 filed (hevaluations ▸ hfiled) hreference.symm
    exact ⟨hsignals.kind.trans hentry.symm, hsignals.entryType.trans htype.symm, hsignals.entryPrice.trans hprice.symm,
      hsignals.stopInitial.trans hstop.symm⟩
  · intro hsame i hi
    refine ⟨hreferenced.references i hi, ?_⟩
    rw [hintents, List.mem_append, List.mem_singleton] at hi
    rw [hevaluations]
    cases hi with
    | inl hi => exact (hagrees i hi).2
    | inr hi =>
      subst hi
      intro e he hid
      rw [hdb.unique e he filed hfiled (hid.trans hreference)]
      exact ⟨hsame.kind.trans hentry, hsame.entryType.trans htype, hsame.entryPrice.trans hprice,
        hsame.stopInitial.trans hstop⟩

theorem Referenced.step (hdb : Referenced db) (s : Step) : Referenced (step db s) := by
  cases s with
  | elsewhere db' =>
    simp only [IntentEvaluations.step]
    by_cases hleaves : Leaves db db'
    · rw [if_pos hleaves]
      exact hdb.leaves hleaves
    · rw [if_neg hleaves]
      exact hdb
  | evaluate call =>
    cases run_cases call db with
    | inl hrecords => exact hdb.records hrecords
    | inr hscheduled =>
      obtain ⟨_, _, _, mid, hrecords, hadds⟩ := hscheduled
      exact (hdb.records hrecords).adds hadds

theorem Agrees.step (hdb : Referenced db) (hagrees : Agrees db) {s : Step}
    (hsame : ∀ call filed result, s = .evaluate call → Schedules call db filed result →
      SameSignal filed.result result) : Agrees (step db s) := by
  cases s with
  | elsewhere db' =>
    simp only [IntentEvaluations.step]
    by_cases hleaves : Leaves db db'
    · rw [if_pos hleaves]
      exact hagrees.leaves hleaves
    · rw [if_neg hleaves]
      exact hagrees
  | evaluate call =>
    cases run_cases call db with
    | inl hrecords => exact hagrees.records hdb hrecords
    | inr hscheduled =>
      obtain ⟨filed, result, hschedules, mid, hrecords, hadds⟩ := hscheduled
      exact (agrees_adds_iff (hdb.records hrecords) (hagrees.records hdb hrecords) hschedules.entry hadds).mpr
        (hsame call filed result rfl hschedules)

theorem run_concat (start : Db) (past : List Step) (s : Step) :
    run start (past ++ [s]) = step (run start past) s := by
  simp [run]

theorem Referenced.run {start : Db} (hstart : Referenced start) (steps : List Step) : Referenced (run start steps) := by
  induction steps using List.reverseRecOn with
  | nil => exact hstart
  | append_singleton past s ih =>
    rw [run_concat]
    exact ih.step s

def unevaluated (start : Db) : Db := { start with
  evaluations := []
  intents := [] }

theorem referenced_unevaluated (start : Db) : Referenced (unevaluated start) := by
  constructor
  · intro e he
    cases he
  · intro e he
    cases he
  · intro i hi
    cases hi

/-- Intents agree with their evaluations in the whole of a run where the evaluation that a new intent is filed under
has the signal of the call, with prices that the columns keep as they are, and in no other run. -/
theorem intents_agree_iff (start : Db) (steps : List Step) :
    (∀ past rest, steps = past ++ rest → Agrees (run (unevaluated start) past)) ↔
      ∀ past call rest, steps = past ++ .evaluate call :: rest → ∀ filed result,
        Schedules call (run (unevaluated start) past) filed result → SameSignal filed.result result := by
  constructor
  · intro hagrees past call rest hsteps filed result hschedules
    have hpast : Agrees (run (unevaluated start) past) := hagrees past _ hsteps
    have hnext : Agrees (run (unevaluated start) (past ++ [.evaluate call])) :=
      hagrees (past ++ [.evaluate call]) rest (by rw [hsteps, List.append_assoc, List.singleton_append])
    have hreferenced := (referenced_unevaluated start).run past
    rw [run_concat] at hnext
    obtain ⟨mid, hrecords, hadds⟩ := run_schedules hschedules
    exact (agrees_adds_iff (hreferenced.records hrecords) (hpast.records hreferenced hrecords) hschedules.entry
      hadds).mp hnext
  · intro hsame past
    induction past using List.reverseRecOn with
    | nil =>
      intro _ _ i hi
      cases hi
    | append_singleton past s ih =>
      intro rest hsteps
      rw [List.append_assoc, List.singleton_append] at hsteps
      rw [run_concat]
      apply Agrees.step ((referenced_unevaluated start).run past) (ih _ hsteps)
      intro call filed result hs hschedules
      exact hsame past call rest (hs ▸ hsteps) filed result hschedules

end Runs

section Sample

def risingSeries (timeframe : Timeframe) (openTime : Time) (closes : List Decimal) : CandleSeries :=
  { symbol := .BTC, timeframe, candles := flatSeries timeframe openTime closes }

def risingBundle : StrategyDataBundle :=
  { symbol := .BTC
    evaluationTime := 19744 * day + 4 * second
    daily := risingSeries .daily (19723 * day) (List.replicate 19 100 ++ [101, 102])
    weekly := risingSeries .weekly (19373 * day) (List.replicate 49 100 ++ [101])
    monthly := risingSeries .monthly (day * firstOfMonth 2022 5) (List.replicate 19 100 ++ [101])
    report := { status := .valid, reasonCodes := [.valid], gaps := [], conflicts := []
                evaluationTime := 19744 * day + 4 * second } }

def risingCall (stopInitialAtrMult : Decimal) (ready : Bool) : EvaluateCall :=
  { config := .defaults
    symbol := .BTC
    evaluationTime := 19744 * day + 4 * second
    ctx :=
      { bundle := risingBundle
        strategyParams := { stopInitialAtrMult }
        entryGates :=
          { entryReady := true, marketDataReady := true, paused := false, killSwitch := false, openPositionCount := 0
            hasSymbolPosition := false, hasNonterminalIntent := false } }
    authorizationAt := 19744 * day + 4 * second
    ready }

def readyDb : Db := { runtimeState := some { status := .ready, heartbeatAt := 19744 * day } }

/-- The entry is blocked at first; the call is replayed with another stop distance. -/
theorem revised_stop_disagrees : ¬∀ (start : Db) (steps : List Step), Agrees (run (unevaluated start) steps) := by
  intro h
  have hagrees := h readyDb [.evaluate (risingCall (5 / 2) false), .evaluate (risingCall 2 true)]
  have hdiffers : ∃ i ∈ (run (unevaluated readyDb)
      [.evaluate (risingCall (5 / 2) false), .evaluate (risingCall 2 true)]).intents,
      ∃ e ∈ (run (unevaluated readyDb)
        [.evaluate (risingCall (5 / 2) false), .evaluate (risingCall 2 true)]).evaluations,
      e.evaluationId = i.strategyEvaluationId ∧ e.result.signalIntent.stopInitial ≠ some i.requestedStop := by
    decide +kernel
  obtain ⟨i, hi, e, he, hid, hstop⟩ := hdiffers
  exact hstop ((hagrees i hi).2 e he hid).stopInitial

end Sample

end TradingBot.Paper.IntentEvaluations
