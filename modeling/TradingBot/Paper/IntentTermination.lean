import TradingBot.Library.Monitor
import TradingBot.Paper.WalletReconstruction

namespace TradingBot.Paper.IntentTermination

open Market.Models Strategy.Models Exceptions Constraints Backtester.Lifecycle Library.Outcome
open Library.Transaction Library.Monitor Relation
open Paper.Models Paper.Repository Paper.PositionTable Paper.Execution Paper.Effects Paper.TradeBook Paper.Lifecycle
open Paper.Account Paper.FillInvariants Paper.WalletReconstruction

section Writes

/-- Every row keeps its key and changes its status along the transitions only. -/
def AllowedWrite : List TradeIntent → List TradeIntent → Prop :=
  List.Forall₂ fun i j => j.intentId = i.intentId ∧ validateIntentTransition i.status j.status = .ok ()

def HasStatus (intentId : Id) (status : TradeIntentStatus) (intents : List TradeIntent) : Prop :=
  ∀ i ∈ intents, i.intentId = intentId → i.status = status

def Terminal (intentId : Id) (intents : List TradeIntent) : Prop :=
  ∃ i ∈ intents, i.intentId = intentId ∧ terminalIntentStatuses.contains i.status

theorem allowedWrite_modify {intentId : Id} {u : IntentUpdate} {status : TradeIntentStatus} {db : Db}
    (hcheck : validateIntentTransition status u.status = .ok ()) (h : HasStatus intentId status db.intents) :
    AllowedWrite db.intents (modifyIntent intentId u db).intents := by
  unfold AllowedWrite modifyIntent
  rw [List.forall₂_map_right_iff, List.forall₂_same]
  intro i hi
  by_cases hid : i.intentId = intentId
  · rw [if_pos hid]
    exact ⟨rfl, h i hi hid ▸ hcheck⟩
  · rw [if_neg hid]
    exact ⟨rfl, by simp [validateIntentTransition]⟩

theorem hasStatus_modify (intentId : Id) (u : IntentUpdate) (db : Db) :
    HasStatus intentId u.status (modifyIntent intentId u db).intents := by
  intro j hj hid
  obtain ⟨i, hi, rfl⟩ := mem_modifyIntent.mp hj
  by_cases hsame : i.intentId = intentId
  · rw [if_pos hsame]
    rfl
  · rw [if_neg hsame] at hid
    exact absurd hid hsame

theorem terminal_of_transition {current target : TradeIntentStatus}
    (hcurrent : terminalIntentStatuses.contains current) (h : validateIntentTransition current target = .ok ()) :
    terminalIntentStatuses.contains target := by
  by_cases hsame : current = target
  · rwa [← hsame]
  · rw [validateIntentTransition, if_neg hsame, if_pos hcurrent] at h
    cases h

theorem terminal_of_allowedWrite {intentId : Id} {intents later : List TradeIntent}
    (h : AllowedWrite intents later) (hterminal : Terminal intentId intents) : Terminal intentId later := by
  induction h with
  | nil => exact hterminal
  | @cons i j intents later hrow _ ih =>
    obtain ⟨k, hk, hid, hstatus⟩ := hterminal
    rcases List.mem_cons.mp hk with rfl | hk
    · exact ⟨j, List.mem_cons_self, hrow.1.trans hid, terminal_of_transition hstatus hrow.2⟩
    · obtain ⟨k', hk', hlast⟩ := ih ⟨k, hk, hid, hstatus⟩
      exact ⟨k', List.mem_cons_of_mem _ hk', hlast⟩

theorem terminal_of_reaches {intentId : Id} {intents later : List TradeIntent}
    (h : ReflTransGen AllowedWrite intents later) (hterminal : Terminal intentId intents) :
    Terminal intentId later := by
  induction h with
  | refl => exact hterminal
  | tail _ hwrite ih => exact terminal_of_allowedWrite hwrite ih

end Writes

section Queries

variable {E : Exc → Prop} {α β : Type}

/-- Not the exception of a refused status change. -/
def Untransitioned (e : Exc) : Prop := ∀ message, e ≠ .invalidTransition message

theorem misses_newId : Misses (·.intents) E newId :=
  fun _ _ => .silent (fun _ => rfl) (fun _ => rfl) (fun s e t _ h => by cases h) fun _ _ _ hs _ => hs

theorem misses_require {condition : Bool} {e : Exc} (he : E e) : Misses (·.intents) E (require condition e) := by
  cases condition
  · exact misses_raise he
  · exact misses_pure ()

theorem performs_ofExcept_bind {R : List TradeIntent → List TradeIntent → Prop} {pre : List TradeIntent → Prop}
    {post : β → List TradeIntent → Prop} {x : Except Exc α} {f : α → Query β} (hx : Fails E x)
    (hf : ∀ a, x = .ok a → Performs (·.intents) R E pre (f a) post) :
    Performs (·.intents) R E pre (ofExcept x >>= f) post := by
  cases x with
  | ok a => exact hf a rfl
  | error e => exact performs_raise (fails_error.mp hx)

variable (hE : ∀ e, Untransitioned e → E e)
include hE

theorem misses_execute {f : Db → Db} (h : ∀ db, (f db).intents = db.intents) :
    Misses (·.intents) E (execute f) := misses_write (hE _ fun _ => by simp) h

theorem misses_scalarOneOrNone (rows : List α) : Misses (·.intents) E (scalarOneOrNone rows) := by
  match rows with
  | [] => exact misses_pure none
  | [a] => exact misses_pure (some a)
  | _ :: _ :: _ => exact misses_raise (hE _ fun _ => by simp)

theorem insertOrGetPaperOrder_misses (row : PaperOrder) : Misses (·.intents) E (insertOrGetPaperOrder row) := by
  refine misses_bind (misses_read _) fun existing => ?_
  rcases existing with _ | existing
  · refine misses_bind (misses_require (hE _ fun _ => by simp)) fun _ => ?_
    refine misses_bind (misses_require (hE _ fun _ => by simp)) fun _ => ?_
    exact misses_bind (misses_execute hE fun _ => rfl) fun _ => misses_pure _
  · exact misses_bind (misses_flush (hE _ fun _ => by simp)) fun _ => misses_pure _

theorem insertOrGetPaperFill_misses (row : PaperFill) : Misses (·.intents) E (insertOrGetPaperFill row) := by
  refine misses_bind (misses_read _) fun rows => misses_bind (misses_scalarOneOrNone hE rows) fun found => ?_
  rcases found with _ | existing
  · refine misses_bind (misses_read _) fun keyed => ?_
    rcases keyed with _ | existing
    · refine misses_bind (misses_require (hE _ fun _ => by simp)) fun _ => ?_
      refine misses_bind (misses_require (hE _ fun _ => by simp)) fun _ => ?_
      refine misses_bind (misses_require (hE _ fun _ => by simp)) fun _ => ?_
      refine misses_bind (misses_execute hE fun _ => rfl) fun _ => ?_
      exact misses_bind (misses_require (hE _ fun _ => by simp)) fun _ => misses_pure _
    · exact misses_bind (misses_flush (hE _ fun _ => by simp)) fun _ => misses_pure _
  · exact misses_pure _

theorem updateWallet_misses (d : WalletDelta) : Misses (·.intents) E (updateWallet d) := by
  refine misses_bind (misses_read _) fun wallet => ?_
  rcases wallet with _ | wallet
  · exact misses_raise (hE _ fun _ => by simp)
  · exact misses_execute hE fun _ => rfl

theorem createPosition_misses (row : PaperPosition) : Misses (·.intents) E (createPosition row) := by
  refine misses_bind (misses_read _) fun taken => ?_
  refine misses_bind (misses_require (hE _ fun _ => by simp)) fun _ => ?_
  refine misses_bind (misses_require (hE _ fun _ => by simp)) fun _ => ?_
  refine misses_bind (misses_require (hE _ fun _ => by simp)) fun _ => ?_
  refine misses_bind (misses_require (hE _ fun _ => by simp)) fun _ => ?_
  refine misses_bind (misses_require (hE _ fun _ => by simp)) fun _ => ?_
  refine misses_bind (misses_execute hE fun _ => rfl) fun _ => ?_
  exact misses_bind (misses_require (hE _ fun _ => by simp)) fun _ => misses_pure _

theorem getPositionForIntent_misses (intentId : Id) : Misses (·.intents) E (getPositionForIntent intentId) :=
  misses_bind (misses_read _) fun _ => misses_scalarOneOrNone hE _

theorem loadExistingFill_misses (intent : TradeIntent) (candleOpenTime : Time) :
    Misses (·.intents) E (loadExistingFill intent candleOpenTime) := by
  refine misses_bind (misses_bind (misses_read _) fun _ => misses_scalarOneOrNone hE _) fun order => ?_
  rcases order with _ | order
  · exact misses_pure none
  · refine misses_bind (misses_read _) fun fill => ?_
    rcases fill with _ | fill
    · exact misses_pure none
    · refine misses_bind (misses_read _) fun stored => ?_
      exact misses_bind (getPositionForIntent_misses hE _) fun _ => misses_pure _

theorem updateIntentStatus_performs {intentId : Id} {u : IntentUpdate} {status : TradeIntentStatus}
    (hcheck : validateIntentTransition status u.status = .ok ()) :
    Performs (·.intents) AllowedWrite E (HasStatus intentId status) (updateIntentStatus intentId u)
      (fun _ => HasStatus intentId u.status) := by
  refine .bind (.write (hE _ fun _ => by simp) (fun db h => .inr (allowedWrite_modify hcheck h))
    fun db _ => hasStatus_modify intentId u db) fun _ => ?_
  refine (misses_read _ _ _).bind fun row => ?_
  rcases row with _ | row
  · exact performs_raise (hE _ fun _ => by simp)
  · exact performs_pure fun _ h => h

end Queries

section Fill

variable {E : Exc → Prop} (hE : ∀ e, Untransitioned e → E e) {risk : RiskEngine IntentKey}
  (hrisk : ∀ input, Fails E (risk input)) {intent : TradeIntent}
include hE

theorem roundIfTick_fails (price : Decimal) (tickSize : Option Decimal) :
    Fails E (Strategy.Stops.roundIfTick price tickSize) := by
  rcases tickSize with _ | tick
  · exact fails_ok _
  · simp only [Strategy.Stops.roundIfTick, Strategy.Stops.roundToTick]
    split_ifs
    · exact fails_error.mpr (hE _ fun _ => by simp)
    · exact fails_ok _

theorem validateSymbolConstraints_fails (constraints : Option SymbolConstraints) :
    Fails E (validateSymbolConstraints constraints) := by
  unfold validateSymbolConstraints
  split
  · exact fails_error.mpr (hE _ fun _ => by simp)
  · split
    · exact fails_error.mpr (hE _ fun _ => by simp)
    · exact fails_ok _

theorem computeEntryFillPrices_fails (openRef atr14 slippageBps : Decimal) (params : StrategyParameters)
    (tickSize : Decimal) : Fails E (computeEntryFillPrices openRef atr14 slippageBps params tickSize) :=
  fails_bind (roundIfTick_fails hE _ _) fun _ => fails_ok _

theorem computeEntryAccounting_fails (fillPrice openRef quantity stopInitial feeRate maxLeverage : Decimal)
    (params : StrategyParameters) (tickSize atr14 : Decimal) :
    Fails E (computeEntryAccounting fillPrice openRef quantity stopInitial feeRate maxLeverage params
      tickSize atr14) := by
  have htrail : Fails E (Strategy.Stops.initializeTrailingStop fillPrice atr14 stopInitial params
      (some tickSize)) := fails_bind (roundIfTick_fails hE _ _) fun _ => fails_ok _
  exact fails_bind htrail fun _ => fails_ok _

include hrisk in
theorem computeEntryExecution_fails (ctx : FillProcessingContext) (cash : Decimal)
    (openPositions : List PaperPosition) (pending : List (PendingIntent IntentKey))
    (processed : List IntentKey) :
    Fails E (computeEntryExecution risk intent ctx cash openPositions pending processed) := by
  unfold computeEntryExecution
  refine fails_bind (validateSymbolConstraints_fails hE _) fun constraints => ?_
  split_ifs
  · exact fails_ok _
  · refine fails_bind (computeEntryFillPrices_fails hE _ _ _ _ _) fun fillPrices => ?_
    refine fails_bind (hrisk _) fun decision => ?_
    split
    · refine fails_bind (computeEntryAccounting_fails hE _ _ _ _ _ _ _ _ _) fun accounting => ?_
      split_ifs
      · exact fails_ok _
      · exact fails_ok _
    · exact fails_ok _

theorem persistRejection_performs (entry : EntryExecutionRejected) :
    Performs (·.intents) AllowedWrite E (HasStatus intent.intentId .submittedToPaperEngine)
      (persistRejection intent entry) (fun _ _ => True) := by
  refine (updateIntentStatus_performs hE rfl).bind fun _ => ?_
  exact performs_pure fun _ _ => trivial

theorem persistSuccessfulFill_performs (entry : EntryExecutionApproved) (openRef : Decimal)
    (candleOpenTime : Time) (atr14 : Decimal) :
    Performs (·.intents) AllowedWrite E (HasStatus intent.intentId .submittedToPaperEngine)
      (persistSuccessfulFill intent entry openRef candleOpenTime atr14) (fun _ _ => True) := by
  refine (misses_newId _ _).bind fun orderId => ?_
  refine (insertOrGetPaperOrder_misses hE _ _ _).bind fun (order, orderCreated) => ?_
  refine (misses_newId _ _).bind fun fillId => ?_
  refine (insertOrGetPaperFill_misses hE _ _ _).bind fun (fill, fillCreated) => ?_
  cases fillCreated
  · refine (misses_read _ _ _).bind fun stored => ?_
    refine (getPositionForIntent_misses hE _ _ _).bind fun position => ?_
    exact performs_pure fun _ _ => trivial
  · refine (updateWallet_misses hE _ _ _).bind fun _ => ?_
    refine (misses_newId _ _).bind fun positionId => ?_
    refine (createPosition_misses hE _ _ _).bind fun position => ?_
    refine (updateIntentStatus_performs hE rfl).bind fun updated => ?_
    exact performs_pure fun _ _ => trivial

include hrisk in
theorem executeScheduledPaperFill_performs (ctx : FillProcessingContext) (processed : List IntentKey)
    (pending : List (PendingIntent IntentKey)) :
    Performs (·.intents) AllowedWrite E (HasStatus intent.intentId .submittedToPaperEngine)
      (executeScheduledPaperFill risk intent ctx processed pending) (fun _ _ => True) := by
  refine performs_ofExcept_bind (validateSymbolConstraints_fails hE _) fun _ _ => ?_
  refine (loadExistingFill_misses hE _ _ _ _).bind fun existing => ?_
  rcases existing with _ | existing
  · refine (misses_read _ _ _).bind fun openPositions => ?_
    split_ifs
    · exact performs_pure fun _ _ => trivial
    · refine (misses_read _ _ _).bind fun wallet => ?_
      rcases wallet with _ | wallet
      · exact performs_raise (hE _ fun _ => by simp)
      · refine performs_ofExcept_bind (computeEntryExecution_fails hE hrisk _ _ _ _ _) fun entry _ => ?_
        rcases entry with rejected | approved
        · refine (persistRejection_performs hE rejected).scope.bind fun _ => ?_
          exact performs_pure fun _ _ => trivial
        · refine (persistSuccessfulFill_performs hE approved _ _ _).scope.bind fun _ => ?_
          exact performs_pure fun _ _ => trivial
  · exact performs_pure fun _ _ => trivial

end Fill

section Batch

structure OpenBatch where
  config : PaperTradingConfig
  risk : RiskEngine IntentKey
  processTime : Time
  contexts : BySymbol FillProcessingContext
  marketDataReady : ℕ → Bool

def OpenBatch.query (c : OpenBatch) : Query (List FillBatchResult) :=
  processScheduledIntentsForOpen c.config c.risk c.processTime c.contexts c.marketDataReady

structure IntentTurn where
  symbol : Symbol
  ctx : FillProcessingContext
  batch : BatchState
  intent : TradeIntent
  session : Session Db

def IntentTurn.query (turn : IntentTurn) (c : OpenBatch) : Query (Option FillOutcome) :=
  scope (authorizeAndFill c.config c.risk c.processTime c.contexts turn.symbol turn.ctx
    turn.batch.processedIntentIds (c.marketDataReady turn.batch.asked) turn.intent)

/-- The intents of a symbol that are processed, in order, up to the first exception. -/
def OpenBatch.symbolTurns (c : OpenBatch) (b : BatchState × List FillBatchResult) (symbol : Symbol)
    (s : Session Db) : List IntentTurn :=
  match c.contexts symbol with
  | none => []
  | some ctx =>
    if c.processTime < ctx.candleOpenTime + c.config.fillDelaySeconds * second then []
    else
      let intents := (s.db.intents.filter (isDueIntent symbol ctx.candleOpenTime)).insertionSort
        fun a b => a.createdAt ≤ b.createdAt
      (forFoldTurns (processIntent c.config c.risk c.processTime c.contexts c.marketDataReady symbol ctx)
        { b.1 with result := { symbol } } intents s).map fun turn =>
          ⟨symbol, ctx, turn.1, turn.2.1, turn.2.2⟩

def OpenBatch.turns (c : OpenBatch) (s : Session Db) : List IntentTurn :=
  (forFoldTurns (processSymbolForOpen c.config c.risk c.processTime c.contexts c.marketDataReady)
    ({ result := { symbol := .BTC } }, []) symbolProcessingOrder s).flatMap fun turn =>
      c.symbolTurns turn.1 turn.2.1 turn.2.2

variable {w₀ : PaperWalletState} {c : OpenBatch} {turn : IntentTurn} {s : Session Db}

/-- The first part of an authorized turn and all that follows. -/
def submitAndFill (c : OpenBatch) (turn : IntentTurn) : Query (Option FillOutcome) := do
  ofExcept (validateIntentTransition turn.intent.status .submittedToPaperEngine)
  let _ ← updateIntentStatus turn.intent.intentId { status := .submittedToPaperEngine }
  let pending ← pendingIntentsForOpenBatch turn.ctx.candleOpenTime turn.symbol c.contexts
    turn.batch.processedIntentIds
  let outcome ← executeScheduledPaperFill c.risk turn.intent turn.ctx turn.batch.processedIntentIds pending
  pure (some outcome)

def cancelUnauthorized (turn : IntentTurn) (reasons : List String) : Query (Option FillOutcome) := do
  ofExcept (validateIntentTransition turn.intent.status .cancelled)
  let _ ← updateIntentStatus turn.intent.intentId
    { status := .cancelled, rejectionReason := some { reasonCodes := reasons } }
  pure none

def IntentTurn.Allowed (turn : IntentTurn) (c : OpenBatch) : Prop :=
  Authorized c.config (c.marketDataReady turn.batch.asked) c.processTime turn.session.db

theorem authorizeAndFill_allowed (h : turn.Allowed c) :
    turn.query c turn.session = scope (submitAndFill c turn) turn.session := by
  obtain ⟨auth, hauth, hiff, _⟩ := evaluateFinalEntryAuthorization_eq c.config
    (c.marketDataReady turn.batch.asked) c.processTime turn.session
  unfold IntentTurn.query authorizeAndFill scope
  rw [bind_of_ok hauth, if_pos (hiff.mpr h)]
  rfl

theorem authorizeAndFill_refused (h : ¬turn.Allowed c) :
    ∃ reasons, turn.query c turn.session = scope (cancelUnauthorized turn reasons) turn.session := by
  obtain ⟨auth, hauth, hiff, _⟩ := evaluateFinalEntryAuthorization_eq c.config
    (c.marketDataReady turn.batch.asked) c.processTime turn.session
  refine ⟨auth.reasons, ?_⟩
  unfold IntentTurn.query authorizeAndFill scope
  rw [bind_of_ok hauth, if_neg fun hallowed => h (hiff.mp hallowed)]
  rfl

section Performs

variable {E : Exc → Prop} (hE : ∀ e, Untransitioned e → E e)
include hE

omit hE in
theorem pendingIntentsForOpenBatch_misses (time : Time) (symbol : Symbol)
    (contexts : BySymbol FillProcessingContext) (skip : List IntentKey) :
    Misses (·.intents) E (pendingIntentsForOpenBatch time symbol contexts skip) := by
  refine misses_bind (misses_forEach fun other _ => ?_) fun _ => misses_pure _
  unfold pendingIntentsForSymbol
  rcases contexts other with _ | ctx
  · exact misses_pure _
  · simp only
    split_ifs
    · exact misses_pure _
    · exact misses_bind (misses_read _) fun _ => misses_pure _

theorem submitAndFill_performs (hrisk : ∀ input, Fails E (c.risk input))
    (hcheck : Fails E (validateIntentTransition turn.intent.status .submittedToPaperEngine)) :
    Performs (·.intents) AllowedWrite E (HasStatus turn.intent.intentId turn.intent.status)
      (submitAndFill c turn) (fun _ _ => True) := by
  refine performs_ofExcept_bind hcheck fun _ hallowed => ?_
  refine (updateIntentStatus_performs hE hallowed).bind fun _ => ?_
  refine (pendingIntentsForOpenBatch_misses _ _ _ _ _ _).bind fun pending => ?_
  refine (executeScheduledPaperFill_performs hE hrisk _ _ _).bind fun outcome => ?_
  exact performs_pure fun _ _ => trivial

theorem cancelUnauthorized_performs {reasons : List String}
    (hcheck : Fails E (validateIntentTransition turn.intent.status .cancelled)) :
    Performs (·.intents) AllowedWrite E (HasStatus turn.intent.intentId turn.intent.status)
      (cancelUnauthorized turn reasons) (fun _ _ => True) := by
  refine performs_ofExcept_bind hcheck fun _ hallowed => ?_
  refine (updateIntentStatus_performs hE hallowed).bind fun _ => ?_
  exact performs_pure fun _ _ => trivial

end Performs

theorem evaluateFinalEntryAuthorization_misses {E : Exc → Prop} (config : PaperTradingConfig) (ready : Bool)
    (time : Time) : Misses (·.intents) E (evaluateFinalEntryAuthorization config ready time) := by
  refine misses_bind (misses_read _) fun runtime => ?_
  rcases runtime with _ | runtime
  · exact misses_pure _
  · exact misses_pure _

theorem query_performs (c : OpenBatch) (turn : IntentTurn) :
    Performs (·.intents) AllowedWrite (fun _ => True) (HasStatus turn.intent.intentId turn.intent.status)
      (turn.query c) (fun _ _ => True) := by
  refine .scope ((evaluateFinalEntryAuthorization_misses _ _ _ _ _).bind fun auth => ?_)
  split_ifs
  · exact submitAndFill_performs (fun _ _ => trivial) (fun _ _ _ => trivial) fun _ _ => trivial
  · exact cancelUnauthorized_performs (fun _ _ => trivial) fun _ _ => trivial

structure Begins (w₀ : PaperWalletState) (turn : IntentTurn) : Prop where
  ledger : Ledger w₀ turn.session.db
  stored : turn.intent ∈ turn.session.db.intents
  due : isDueIntent turn.symbol turn.ctx.candleOpenTime turn.intent

theorem hasStatus_of_stored {db : Db} {intent : TradeIntent} (hs : Ledger w₀ db) (hi : intent ∈ db.intents) :
    HasStatus intent.intentId intent.status db.intents := by
  obtain ⟨trades, hbook⟩ := hs
  intro i hmem hid
  rw [hbook.intent_ext hmem hi hid]

theorem Begins.time (h : Begins w₀ turn) : turn.intent.scheduledFillTime = turn.ctx.candleOpenTime := by
  have hdue := h.due
  simp only [isDueIntent, decide_eq_true_eq] at hdue
  exact hdue.2.1

theorem Begins.status (h : Begins w₀ turn) :
    turn.intent.status = .scheduled ∨ turn.intent.status = .submittedToPaperEngine := by
  have hdue := h.due
  simp only [isDueIntent, decide_eq_true_eq] at hdue
  exact hdue.2.2

/-- The rows of the intents only ever go along the transitions. -/
def Progress (db db' : Db) : Prop := ReflTransGen AllowedWrite db.intents db'.intents

theorem processIntent_db {symbol : Symbol} {ctx : FillProcessingContext} {b : BatchState} {i : TradeIntent}
    (htime : i.scheduledFillTime = ctx.candleOpenTime) (s : Session Db) :
    (processIntent c.config c.risk c.processTime c.contexts c.marketDataReady symbol ctx b i s).2.db =
      ((IntentTurn.mk symbol ctx b i s).query c s).2.db := by
  unfold processIntent IntentTurn.query
  rw [if_neg (not_not.mpr htime)]
  exact bind_pure_db _ _ s

theorem processIntent_progress {symbol : Symbol} {ctx : FillProcessingContext} (b : BatchState)
    (i : TradeIntent) (rest : List TradeIntent) (s : Session Db)
    (hs : Due (Ledger w₀) ctx.candleOpenTime (i :: rest) s.db) :
    Due (Ledger w₀) ctx.candleOpenTime rest
      (processIntent c.config c.risk c.processTime c.contexts c.marketDataReady symbol ctx b i s).2.db ∧
    Progress s.db
      (processIntent c.config c.risk c.processTime c.contexts c.marketDataReady symbol ctx b i s).2.db := by
  refine ⟨processIntent_due b i rest s hs, ?_⟩
  obtain ⟨hmem, _, htime⟩ := hs.stored i List.mem_cons_self
  rw [processIntent_db htime]
  exact ((query_performs c (.mk symbol ctx b i s)).run s (hasStatus_of_stored hs.account hmem)).reaches

theorem processSymbolForOpen_progress (b : BatchState × List FillBatchResult) (symbol : Symbol)
    (s : Session Db) (hs : Ledger w₀ s.db) :
    Progress s.db (processSymbolForOpen c.config c.risk c.processTime c.contexts c.marketDataReady b symbol
      s).2.db := by
  unfold processSymbolForOpen
  rcases c.contexts symbol with _ | ctx
  · exact .refl
  · simp only
    split_ifs
    · exact .refl
    · unfold getScheduledIntentsForSymbol
      rw [read_bind]
      rw [bind_pure_db]
      exact forFold_relates (S := Progress) (fun _ => .refl) (fun _ _ _ => .trans) processIntent_progress _ _ s
        (scheduledIntents_due hs symbol ctx.candleOpenTime)

theorem begins_of_mem (hs : Ledger w₀ s.db) (h : turn ∈ c.turns s) :
    Begins w₀ turn ∧ Progress (turn.query c turn.session).2.db (c.query s).2.db := by
  obtain ⟨⟨b, symbol, t⟩, hsymbol, hturn⟩ := List.mem_flatMap.mp h
  have hstep : ∀ (b : BatchState × List FillBatchResult) (symbol : Symbol) (_ : List Symbol) (t : Session Db),
      Ledger w₀ t.db →
      Ledger w₀ (processSymbolForOpen c.config c.risk c.processTime c.contexts c.marketDataReady b symbol t).2.db ∧
      Progress t.db
        (processSymbolForOpen c.config c.risk c.processTime c.contexts c.marketDataReady b symbol t).2.db :=
    fun b symbol _ t ht => ⟨processSymbolForOpen_keeps _ _ _ _ _ b symbol t ht,
      processSymbolForOpen_progress b symbol t ht⟩
  obtain ⟨_, ⟨_, hledger⟩, houter⟩ := forFoldTurns_relates (S := Progress) (fun _ => Ledger w₀)
    (fun _ => .refl) (fun _ _ _ => .trans) hstep hs hsymbol
  have hfinal : Progress (processSymbolForOpen c.config c.risk c.processTime c.contexts c.marketDataReady b
      symbol t).2.db (c.query s).2.db := by
    unfold OpenBatch.query processScheduledIntentsForOpen
    rw [bind_pure_db]
    exact houter
  unfold OpenBatch.symbolTurns at hturn
  simp only at hturn hledger
  rcases hcontext : c.contexts symbol with _ | ctx <;> simp only [hcontext] at hturn
  · cases hturn
  · by_cases hearly : c.processTime < ctx.candleOpenTime + c.config.fillDelaySeconds * second
    · rw [if_pos hearly] at hturn
      cases hturn
    · rw [if_neg hearly] at hturn
      obtain ⟨⟨b', i, u⟩, hmem, rfl⟩ := List.mem_map.mp hturn
      obtain ⟨hdue, ⟨later, hbegin⟩, hinner⟩ := forFoldTurns_relates (S := Progress) _ (fun _ => .refl)
        (fun _ _ _ => .trans) processIntent_progress
        (scheduledIntents_due hledger symbol ctx.candleOpenTime) hmem
      obtain ⟨hstored, _, htime⟩ := hbegin.stored i List.mem_cons_self
      refine ⟨⟨hbegin.account, hstored, ?_⟩, ?_⟩
      · exact (List.mem_filter.mp ((List.perm_insertionSort _ _).mem_iff.mp hdue)).2
      · rw [processIntent_db htime] at hinner
        refine hinner.trans ?_
        unfold processSymbolForOpen at hfinal
        simp only [hcontext, if_neg hearly] at hfinal
        unfold getScheduledIntentsForSymbol at hfinal
        rw [read_bind, bind_pure_db] at hfinal
        exact hfinal

end Batch

section Termination

variable {w₀ : PaperWalletState} {c : OpenBatch} {turn : IntentTurn} {s t : Session Db}

/-- What a processed intent owes: its writes are allowed changes, no status change is refused, and once its
transaction has returned it is terminal, then and at the end of the call. -/
structure Settles (c : OpenBatch) (turn : IntentTurn) (final : Db) : Prop where
  writes : ∃ pre : List TradeIntent → Prop, pre turn.session.db.intents ∧
    Performs (·.intents) AllowedWrite (fun _ => True) pre (turn.query c) (fun _ _ => True)
  accepted : ∀ message t, turn.query c turn.session ≠ (.error (.invalidTransition message), t)
  terminal : ∀ r t, turn.query c turn.session = (.ok r, t) →
    Terminal turn.intent.intentId t.db.intents ∧ Terminal turn.intent.intentId final.intents

/-- The symbol already has an open position, and nothing stops the turn before it sees that: the constraints
pass their check, and the database takes the first write. -/
structure Blocked (turn : IntentTurn) : Prop where
  occupied : Occupied turn.session.db turn.intent.symbol
  constraints : ∃ checked, validateSymbolConstraints (some turn.ctx.constraints) = .ok checked
  written : turn.session.faults.head? ≠ some true

/-- An authorized intent finds its symbol free, and an unauthorized one was not submitted before. -/
structure Smooth (c : OpenBatch) (turn : IntentTurn) : Prop where
  free : turn.Allowed c → ¬Blocked turn
  fresh : ¬turn.Allowed c → turn.intent.status ≠ .submittedToPaperEngine

theorem Begins.unordered (h : Begins w₀ turn) : Unordered turn.intent.intentId turn.session.db := by
  refine unordered_of_not_filled h.ledger h.stored fun hfilled => ?_
  rcases h.status with hstatus | hstatus <;> rw [hstatus] at hfilled <;> cases hfilled

theorem Begins.submittable (h : Begins w₀ turn) :
    validateIntentTransition turn.intent.status .submittedToPaperEngine = .ok () := by
  rcases h.status with hstatus | hstatus <;> rw [hstatus] <;> rfl

theorem terminal_modify {i : TradeIntent} {intentId : Id} {u : IntentUpdate} {db : Db} (hi : i ∈ db.intents)
    (hid : i.intentId = intentId) (hu : terminalIntentStatuses.contains u.status) :
    Terminal intentId (modifyIntent intentId u db).intents :=
  ⟨u.apply i, mem_modifyIntent.mpr ⟨i, hi, by rw [if_pos hid]⟩, hid, hu⟩

theorem terminal_of_fillEffect {i intent : TradeIntent} {ctx : FillProcessingContext} {db db' : Db}
    (hi : i ∈ db.intents) (hid : i.intentId = intent.intentId) (h : FillEffect intent ctx db db') :
    Terminal intent.intentId db'.intents := by
  cases h with
  | rejected reason => exact terminal_modify hi hid rfl
  | entered entry hfree hqty hmargin hstops =>
    have hfilled : Terminal intent.intentId (modifyIntent intent.intentId
      { status := .filled, approvedQuantity := some entry.quantity } db).intents := terminal_modify hi hid rfl
    exact hfilled

theorem not_terminal_of_submitted {intentId : Id} {intents : List TradeIntent}
    (h : HasStatus intentId .submittedToPaperEngine intents) : ¬Terminal intentId intents := by
  rintro ⟨i, hi, hid, hterminal⟩
  rw [h i hi hid] at hterminal
  revert hterminal
  decide

theorem accepted_of_smooth (hrisk : ∀ input, Fails Untransitioned (c.risk input)) (hbegin : Begins w₀ turn)
    (h : Smooth c turn) :
    ∀ message t, turn.query c turn.session ≠ (.error (.invalidTransition message), t) := by
  intro message t hrun
  have hstatus := hasStatus_of_stored hbegin.ledger hbegin.stored
  by_cases hallowed : turn.Allowed c
  · rw [authorizeAndFill_allowed hallowed] at hrun
    have hcheck : Fails Untransitioned (validateIntentTransition turn.intent.status .submittedToPaperEngine) := by
      rw [hbegin.submittable]
      exact fails_ok _
    have hturn := (submitAndFill_performs (fun _ => id) hrisk hcheck).scope.run turn.session hstatus
    exact hturn.raises _ t hrun message rfl
  · obtain ⟨reasons, hquery⟩ := authorizeAndFill_refused hallowed
    rw [hquery] at hrun
    have hcheck : Fails Untransitioned (validateIntentTransition turn.intent.status .cancelled) := by
      rw [hbegin.status.resolve_right (h.fresh hallowed)]
      exact fails_ok _
    have hperforms : Performs (·.intents) AllowedWrite Untransitioned
        (HasStatus turn.intent.intentId turn.intent.status) (cancelUnauthorized turn reasons) (fun _ _ => True) :=
      cancelUnauthorized_performs (fun _ => id) hcheck
    exact (hperforms.scope.run turn.session hstatus).raises _ t hrun message rfl

theorem submitAndFill_terminal (hbegin : Begins w₀ turn) (hfree : ¬Blocked turn) {r : Option FillOutcome}
    (h : submitAndFill c turn turn.session = (.ok r, t)) : Terminal turn.intent.intentId t.db.intents := by
  obtain ⟨_, u, hcheck, h⟩ := bind_eq_ok.mp h
  obtain ⟨_, rfl⟩ := ofExcept_eq_ok.mp hcheck
  obtain ⟨_, u, hsubmit, h⟩ := bind_eq_ok.mp h
  obtain ⟨_, _, hwrite, _⟩ := bind_eq_ok.mp hsubmit
  have hdb := updateIntentStatus_ok hsubmit
  obtain ⟨pending, hpending⟩ := pendingIntentsForOpenBatch_eq turn.ctx.candleOpenTime turn.symbol c.contexts
    turn.batch.processedIntentIds u
  rw [bind_of_ok hpending] at h
  obtain ⟨outcome, u', hfill, hpure⟩ := bind_eq_ok.mp h
  cases hpure
  have hledger : Ledger w₀ u.db := by
    rw [hdb]
    exact Accounted.mark (.inl rfl) hbegin.unordered hbegin.ledger
  have hmem : { turn.intent with status := .submittedToPaperEngine } ∈ u.db.intents := by
    rw [hdb]
    exact mem_modifyIntent.mpr ⟨turn.intent, hbegin.stored, by rw [if_pos rfl]; rfl⟩
  have hsource : Scheduled turn.intent turn.ctx.candleOpenTime u.db := ⟨_, hmem, rfl, hbegin.time⟩
  obtain ⟨trades, hbook⟩ := hledger
  rcases executeScheduledPaperFill_cases (entry_found hbook hsource) (fun entry => hbook.entryFill_absent _)
    hfill with ⟨hstop, _⟩ | ⟨_, _, heffect⟩
  · rw [hdb] at hstop
    rcases hstop with ⟨o, ho, hid⟩ | hoccupied
    · exact absurd hid (hbegin.unordered o ho)
    · obtain ⟨checked, _, hconstraints, _⟩ := bind_eq_ok.mp hfill
      exact absurd ⟨hoccupied, ⟨checked, (ofExcept_eq_ok.mp hconstraints).1⟩, head_of_write_ok hwrite⟩ hfree
  · exact terminal_of_fillEffect hmem rfl heffect

theorem terminal_of_smooth (hbegin : Begins w₀ turn) (h : Smooth c turn) {r : Option FillOutcome}
    (hrun : turn.query c turn.session = (.ok r, t)) : Terminal turn.intent.intentId t.db.intents := by
  by_cases hallowed : turn.Allowed c
  · rw [authorizeAndFill_allowed hallowed] at hrun
    exact submitAndFill_terminal hbegin (h.free hallowed) (scope_eq_ok.mp hrun)
  · obtain ⟨reasons, hquery⟩ := authorizeAndFill_refused hallowed
    rw [hquery] at hrun
    obtain ⟨_, u, hcheck, hrun⟩ := bind_eq_ok.mp (scope_eq_ok.mp hrun)
    obtain ⟨_, rfl⟩ := ofExcept_eq_ok.mp hcheck
    obtain ⟨_, u, hcancel, hpure⟩ := bind_eq_ok.mp hrun
    cases hpure
    rw [updateIntentStatus_ok hcancel]
    exact terminal_modify hbegin.stored rfl rfl

theorem updateIntentStatus_run {i : TradeIntent} {u : IntentUpdate} (hi : i ∈ s.db.intents)
    (hfaults : s.faults.head? ≠ some true) : ∃ row,
    updateIntentStatus i.intentId u s = (.ok row, ⟨modifyIntent i.intentId u s.db, s.faults.tail⟩) := by
  have hmem : u.apply i ∈ (modifyIntent i.intentId u s.db).intents :=
    mem_modifyIntent.mpr ⟨i, hi, by rw [if_pos rfl]⟩
  unfold updateIntentStatus execute getIntent
  rw [bind_of_ok (write_run_of_head hfaults), read_bind]
  rcases hfind : (modifyIntent i.intentId u s.db).intents.find? (·.intentId = i.intentId) with _ | row
  · have hnone := List.find?_eq_none.mp hfind _ hmem
    have hkey : (u.apply i).intentId = i.intentId := rfl
    simp [hkey] at hnone
  · refine ⟨row, ?_⟩
    simp only [modifyIntent] at hfind
    simp only [hfind]
    rfl

theorem executeScheduledPaperFill_occupied {risk : RiskEngine IntentKey} {intent : TradeIntent}
    {ctx : FillProcessingContext} {processed : List IntentKey} {pending : List (PendingIntent IntentKey)}
    {checked : SymbolConstraints} (hconstraints : validateSymbolConstraints (some ctx.constraints) = .ok checked)
    (hnone : Unordered intent.intentId s.db) (hoccupied : Occupied s.db intent.symbol) : ∃ outcome,
    executeScheduledPaperFill risk intent ctx processed pending s = (.ok outcome, s) := by
  have hload : loadExistingFill intent ctx.candleOpenTime s = (.ok none, s) := by
    have horders : s.db.orders.filter (·.intentId = intent.intentId) = [] := by
      simpa [List.filter_eq_nil_iff, Unordered] using hnone
    unfold loadExistingFill getOrderForIntent
    rw [bind_of_ok (t := s) (a := none)]
    · rfl
    · rw [read_bind, horders]
      rfl
  unfold executeScheduledPaperFill
  rw [hconstraints]
  refine ⟨.inl { detail := "position already open for symbol" }, ?_⟩
  rw [bind_of_ok (show ofExcept (.ok checked) s = (.ok checked, s) from rfl), bind_of_ok hload]
  simp only [getOpenPositions]
  rw [read_bind]
  unfold Occupied at hoccupied
  rw [if_pos hoccupied]
  rfl

theorem submitted_of_blocked (hbegin : Begins w₀ turn) (hallowed : turn.Allowed c) (h : Blocked turn) :
    ∃ r t, turn.query c turn.session = (.ok r, t) ∧ ¬Terminal turn.intent.intentId t.db.intents := by
  obtain ⟨hoccupied, ⟨checked, hconstraints⟩, hfaults⟩ := h
  obtain ⟨row, hsubmit⟩ := updateIntentStatus_run (u := { status := .submittedToPaperEngine }) hbegin.stored hfaults
  obtain ⟨pending, hpending⟩ := pendingIntentsForOpenBatch_eq turn.ctx.candleOpenTime turn.symbol c.contexts
    turn.batch.processedIntentIds ⟨modifyIntent turn.intent.intentId { status := .submittedToPaperEngine }
      turn.session.db, turn.session.faults.tail⟩
  obtain ⟨outcome, hfill⟩ : ∃ outcome,
      executeScheduledPaperFill c.risk turn.intent turn.ctx turn.batch.processedIntentIds pending
        ⟨modifyIntent turn.intent.intentId { status := .submittedToPaperEngine } turn.session.db,
          turn.session.faults.tail⟩ = (.ok outcome,
        ⟨modifyIntent turn.intent.intentId { status := .submittedToPaperEngine } turn.session.db,
          turn.session.faults.tail⟩) :=
    executeScheduledPaperFill_occupied hconstraints hbegin.unordered hoccupied
  have hrun : submitAndFill c turn turn.session = (.ok (some outcome),
      ⟨modifyIntent turn.intent.intentId { status := .submittedToPaperEngine } turn.session.db,
        turn.session.faults.tail⟩) := by
    unfold submitAndFill
    rw [hbegin.submittable, bind_of_ok (show ofExcept (.ok ()) turn.session = (.ok (), turn.session) from rfl),
      bind_of_ok hsubmit, bind_of_ok hpending, bind_of_ok hfill, pure_run]
  refine ⟨_, _, (authorizeAndFill_allowed hallowed).trans (scope_of_ok hrun), ?_⟩
  exact not_terminal_of_submitted (hasStatus_modify _ _ _)

theorem refused_of_stale (hallowed : ¬turn.Allowed c) (h : turn.intent.status = .submittedToPaperEngine) :
    ∃ message t, turn.query c turn.session = (.error (.invalidTransition message), t) := by
  obtain ⟨reasons, hquery⟩ := authorizeAndFill_refused hallowed
  have hcheck : validateIntentTransition turn.intent.status .cancelled = .error (.invalidTransition
      "invalid intent transition SUBMITTED_TO_PAPER_ENGINE -> CANCELLED") := by
    rw [h]
    rfl
  refine ⟨"invalid intent transition SUBMITTED_TO_PAPER_ENGINE -> CANCELLED", turn.session, ?_⟩
  rw [hquery, cancelUnauthorized, hcheck]
  rfl

/-- A processed intent gets what it is owed exactly when its turn is smooth. -/
theorem processed_intent_settles_iff (hrisk : ∀ input message, c.risk input ≠ .error (.invalidTransition message))
    (hs : Ledger w₀ s.db) (hturn : turn ∈ c.turns s) : Settles c turn (c.query s).2.db ↔ Smooth c turn := by
  obtain ⟨hbegin, hprogress⟩ := begins_of_mem hs hturn
  constructor
  · intro h
    refine ⟨fun hallowed hblocked => ?_, fun hallowed hstale => ?_⟩
    · obtain ⟨r, t, hrun, hnot⟩ := submitted_of_blocked hbegin hallowed hblocked
      exact hnot (h.terminal r t hrun).1
    · obtain ⟨message, t, hrun⟩ := refused_of_stale hallowed hstale
      exact h.accepted message t hrun
  · intro h
    have hfails : ∀ input, Fails Untransitioned (c.risk input) := by
      intro input e herror message he
      exact hrisk input message (herror.trans (he ▸ rfl))
    refine ⟨⟨_, hasStatus_of_stored hbegin.ledger hbegin.stored, query_performs c turn⟩,
      accepted_of_smooth hfails hbegin h, fun r t hrun => ?_⟩
    have hterminal := terminal_of_smooth hbegin h hrun
    rw [hrun] at hprogress
    exact ⟨hterminal, terminal_of_reaches hprogress hterminal⟩

end Termination

section Example

def pullbackEntry : StrategyEvaluation := { longEntry with selectedEntryType := some .pullback }

def twoSignals : Session Db :=
  ⟨account .defaults approveOne { cash := 1000 } readyBase
    [{ operation := .createIntent longEntryRecord longEntry openGates day day true },
     { operation := .createIntent { longEntryRecord with evaluationId := 1 } pullbackEntry openGates day day true }],
    []⟩

def morning : OpenBatch :=
  { config := .defaults, risk := approveOne, processTime := day, contexts := BySymbol.single .BTC btcFillContext
    marketDataReady := fun _ => true }

def pausedLater : Session Db :=
  ⟨{ (morning.query twoSignals).2.db with
    runtimeState := some { status := .ready, heartbeatAt := day, paused := true } }, []⟩

theorem turns_ne_nil : morning.turns twoSignals ≠ [] := by decide +kernel

def firstTurn : IntentTurn := (morning.turns twoSignals).head turns_ne_nil

def secondTurn : IntentTurn := (morning.turns twoSignals).getLast turns_ne_nil

/-- The first of two intents for one symbol is filled and stays so. -/
theorem first_signal_settles : Settles morning firstTurn (morning.query twoSignals).2.db := by
  have hfree : ¬Occupied firstTurn.session.db firstTurn.intent.symbol := by
    unfold Occupied
    decide +kernel
  have hledger : Ledger { cash := 1000 } twoSignals.db := account_ledger _ _
  refine (processed_intent_settles_iff (fun _ _ h => by cases h) hledger (List.head_mem turns_ne_nil)).mpr
    ⟨fun _ hblocked => hfree hblocked.occupied, fun _ => ?_⟩
  decide +kernel

/-- The second one finds the position of the first and is left submitted, and when it is due again without
an authorization, its cancellation is refused. -/
theorem second_signal_left_submitted :
    (∃ turn ∈ morning.turns twoSignals, ¬Settles morning turn (morning.query twoSignals).2.db) ∧
    (morning.query pausedLater).1.map (fun _ => ()) = .error (.invalidTransition
      "invalid intent transition SUBMITTED_TO_PAPER_ENGINE -> CANCELLED") := by
  refine ⟨⟨secondTurn, List.getLast_mem turns_ne_nil, fun h => ?_⟩, by decide +kernel⟩
  have hreturns : (secondTurn.query morning secondTurn.session).1.toBool = true := by decide +kernel
  have hstuck : ¬Terminal secondTurn.intent.intentId (morning.query twoSignals).2.db.intents := by
    unfold Terminal
    decide +kernel
  rcases hrun : secondTurn.query morning secondTurn.session with ⟨e | r, t⟩
  · rw [hrun] at hreturns
    cases hreturns
  · exact hstuck (h.terminal r t hrun).2

end Example

end TradingBot.Paper.IntentTermination
