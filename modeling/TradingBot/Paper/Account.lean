import TradingBot.Paper.Lifecycle
import TradingBot.Paper.TradeBook

namespace TradingBot.Paper.Account

open Market.Models Strategy.Models Constraints Backtester.Lifecycle Library Library.Transaction
open Paper.Models Paper.Repository Paper.Stops Paper.PositionTable Paper.Execution Paper.Effects Paper.TradeBook
open Paper.Lifecycle

section Intents

variable {w₀ : PaperWalletState} {db db' : Db} {trades : List Trade} {intent : TradeIntent}
  {ctx : FillProcessingContext}

def Scheduled (intent : TradeIntent) (time : Time) (db : Db) : Prop :=
  ∃ i ∈ db.intents, i.intentId = intent.intentId ∧ i.scheduledFillTime = time

theorem entry_found (h : Represents w₀ db trades) {time : Time} (hsource : Scheduled intent time db) :
    ∀ o ∈ db.orders, o.intentId = intent.intentId → ∃ f ∈ db.fills,
      f.deterministicFillKey = .entry o.paperOrderId (wholeSeconds time) 0 := by
  intro o ho hid
  rw [h.orders] at ho
  obtain ⟨t, ht, rfl⟩ := List.mem_map.mp ho
  obtain ⟨i, hi, hiid, rfl⟩ := hsource
  obtain ⟨j, hj, hjid, hjtime⟩ := h.sources t ht
  have hij : i = j := h.intent_ext hi hj (hiid.trans (hid.symm.trans hjid.symm))
  refine ⟨t.entry, h.mem_fills.mpr ⟨t, ht, .inl rfl⟩, ?_⟩
  rw [t.entry_key, ← hjtime, hij]

def Unordered (intentId : Id) (db : Db) : Prop := ∀ o ∈ db.orders, o.intentId ≠ intentId

theorem no_trade_of_unordered {intentId : Id} (h : Represents w₀ db trades) (hnone : Unordered intentId db) :
    ∀ t ∈ trades, t.order.intentId ≠ intentId := by
  intro t ht
  refine hnone t.order ?_
  rw [h.orders]
  exact List.mem_map_of_mem ht

theorem unordered_of_not_filled (h : Ledger w₀ db) (hi : intent ∈ db.intents)
    (hstatus : intent.status ≠ .filled) : Unordered intent.intentId db := by
  obtain ⟨trades, hbook⟩ := h
  intro o ho heq
  rw [hbook.orders] at ho
  obtain ⟨t, ht, rfl⟩ := List.mem_map.mp ho
  exact hstatus ((hbook.filled intent hi).mpr ⟨t, ht, heq⟩)

theorem fillEffect_represents (h : Represents w₀ db trades)
    (hsource : Scheduled intent ctx.candleOpenTime db) (hnone : Unordered intent.intentId db)
    (heffect : FillEffect intent ctx db db') : Ledger w₀ db' := by
  have hfree := no_trade_of_unordered h hnone
  cases heffect with
  | rejected reason => exact ⟨trades, h.modifyIntent (by simp) hfree⟩
  | entered entry hopen hqty hmargin hstops => exact ⟨_, h.enter hsource hfree hopen hqty hmargin⟩

theorem fillEffect_intents {j : TradeIntent} (hj : j ∈ db.intents)
    (hne : j.intentId ≠ intent.intentId) (heffect : FillEffect intent ctx db db') : j ∈ db'.intents := by
  cases heffect with
  | rejected reason => exact mem_modifyIntent.mpr ⟨j, hj, if_neg hne⟩
  | entered entry hfree hqty hmargin hstops => exact List.mem_map.mpr ⟨j, hj, if_neg hne⟩

end Intents

section Rules

variable {w₀ : PaperWalletState} {db : Db}

theorem running_of_openOf {trades : List Trade} {position : PaperPosition} {symbol : Symbol}
    (h : Represents w₀ db trades) (hp : position ∈ openOf db symbol) :
    ∃ t ∈ trades, t.position = position ∧ t.exit = none := by
  obtain ⟨hmem, _, hopen⟩ := mem_openOf.mp hp
  rw [h.positions] at hmem
  obtain ⟨t, ht, rfl⟩ := List.mem_map.mp hmem
  exact ⟨t, ht, rfl, t.exit_eq_none_iff.mpr hopen⟩

/-- A property of the account that holds only of books of trades and survives whatever the services
commit: an intent is scheduled, submitted, cancelled, rejected or filled, a position closes or has its stop
raised. -/
class Accounted (inv : Db → Prop) : Prop where
  ledger : ∀ {db : Db}, inv db → ∃ w₀, Ledger w₀ db
  frame : ∀ {db db' : Db}, db'.orders = db.orders → db'.positions = db.positions → db'.fills = db.fills →
    db'.wallet = db.wallet → db'.intents = db.intents → db'.fundingEvents = db.fundingEvents →
    db'.stopHistory = db.stopHistory → db.nextId ≤ db'.nextId → inv db → inv db'
  schedule : ∀ {db : Db} {row : TradeIntent}, row.intentId = db.nextId → row.status = .scheduled → inv db →
    inv { db with intents := db.intents ++ [row], nextId := db.nextId + 1 }
  mark : ∀ {db : Db} {intentId : Id} {u : IntentUpdate},
    u.status = .submittedToPaperEngine ∨ u.status = .cancelled → Unordered intentId db → inv db →
    inv (modifyIntent intentId u db)
  fill : ∀ {db db' : Db} {intent : TradeIntent} {ctx : FillProcessingContext},
    Scheduled intent ctx.candleOpenTime db → Unordered intent.intentId db → FillEffect intent ctx db db' →
    inv db → inv db'
  exit : ∀ {db : Db} {symbol : Symbol} {position : PaperPosition} (trigger : StopTriggerResult)
    (bps feeRate : Decimal) (time : Time), position ∈ openOf db symbol → inv db →
    inv (exited position trigger (computeExitAccounting trigger.exitReference position.quantity
      position.averageEntryPrice bps feeRate) time db)
  raise : ∀ {db : Db} {symbol : Symbol} {position : PaperPosition} {updated : TrailingStopState}
    (atr : Decimal) (time : Time), position ∈ openOf db symbol →
    position.currentStop < updated.effectiveStop →
    position.highestCloseSinceEntry ≤ updated.highestClose → inv db →
    inv (raised position updated atr time db)

instance (w₀ : PaperWalletState) : Accounted (Ledger w₀) where
  ledger := fun h => ⟨w₀, h⟩
  frame := fun horders hpositions hfills hwallet hintents hfunding _ hid h =>
    h.frame horders hpositions hfills hwallet hintents hfunding hid
  schedule := by
    rintro db row hid hstatus ⟨trades, hbook⟩
    exact ⟨trades, hbook.insertIntent hid (by simp [hstatus])⟩
  mark := by
    rintro db intentId u hu hnone ⟨trades, hbook⟩
    refine ⟨trades, hbook.modifyIntent ?_ (no_trade_of_unordered hbook hnone)⟩
    rcases hu with hu | hu <;> simp [hu]
  fill := fun hsource hnone heffect h => h.elim fun _ hbook => fillEffect_represents hbook hsource hnone heffect
  exit := by
    rintro db symbol position trigger bps feeRate time hp ⟨trades, hbook⟩
    obtain ⟨t, ht, rfl, hrunning⟩ := running_of_openOf hbook hp
    exact hbook.exit ht hrunning trigger bps feeRate time
  raise := by
    rintro db symbol position updated atr time hp _ _ ⟨trades, hbook⟩
    obtain ⟨t, ht, rfl, _⟩ := running_of_openOf hbook hp
    exact (hbook.raise ht updated).frame rfl rfl rfl rfl rfl rfl (Nat.le_succ _)

end Rules

variable {inv : Db → Prop} [Accounted inv]

section Snapshots

theorem keeps_newId : Keeps inv newId := by
  intro s hs
  have horders : (newId s).2.db.orders = s.db.orders := rfl
  exact Accounted.frame horders rfl rfl rfl rfl rfl rfl (Nat.le_succ _) hs

theorem keeps_insertOrGetPortfolioSnapshot (row : PortfolioSnapshot) :
    Keeps inv (insertOrGetPortfolioSnapshot row) := by
  refine keeps_bind (keeps_read _) fun found => ?_
  rcases found with _ | existing
  · refine keeps_bind (keeps_write _ fun db hdb => ?_) fun _ => keeps_pure _
    have horders : ({ db with snapshots := db.snapshots ++ [row] } : Db).orders = db.orders := rfl
    exact Accounted.frame horders rfl rfl rfl rfl rfl rfl (le_refl _) hdb
  · exact keeps_bind (keeps_flush _) fun _ => keeps_pure _

theorem keeps_captureSnapshot (time : Time) (event : String) :
    Keeps inv (captureSnapshot time event) := by
  refine keeps_bind (keeps_read _) fun wallet => ?_
  rcases wallet with _ | wallet
  · exact keeps_raise _
  · refine keeps_bind (keeps_read _) fun openPositions => ?_
    exact keeps_bind keeps_newId fun _ => (keeps_insertOrGetPortfolioSnapshot _).scope

end Snapshots

section Stops

variable {s s' : Session Db} {position : PaperPosition} {symbol : Symbol}

theorem persistExit_keeps {trigger : StopTriggerResult} {bps feeRate : Decimal} {time : Time}
    {closed : Bool} (hs : inv s.db) (hp : position ∈ openOf s.db symbol)
    (h : persistExit position trigger (computeExitAccounting trigger.exitReference position.quantity
      position.averageEntryPrice bps feeRate) time s = (.ok closed, s')) : inv s'.db := by
  rcases persistExit_ok h with ⟨_, n, hn, hdb⟩ | ⟨_, _, _, hdb⟩ <;> rw [hdb]
  · have horders : ({ s.db with nextId := n } : Db).orders = s.db.orders := rfl
    exact Accounted.frame horders rfl rfl rfl rfl rfl rfl hn hs
  · exact Accounted.exit trigger bps feeRate time hp hs

theorem closeSymbolIfStopped_keeps (config : PaperTradingConfig) (check : StopCheck) (time : Time)
    (candles : BySymbol Candle) (constraints : BySymbol SymbolConstraints) (symbol : Symbol) :
    Keeps inv (closeSymbolIfStopped config check time candles constraints symbol) := by
  intro s hs
  obtain ⟨_, hledger⟩ := Accounted.ledger hs
  unfold closeSymbolIfStopped
  rw [bind_of_ok (getOpenPositionForSymbol_run hledger.keys symbol)]
  rcases hhead : (openOf s.db symbol).head? with _ | position
  · exact hs
  · have hp : position ∈ openOf s.db symbol := List.mem_of_head? hhead
    rcases candles symbol with _ | candle
    · exact hs
    · refine bind_keeps ?_ fun _ => keeps_pure _
      unfold closeIfStopped
      rcases constraints symbol with _ | constraint
      · exact hs
      rcases stopTrigger check candle (paperPositionToSimulated position) with _ | trigger
      · exact hs
      · refine bind_keeps (scope_keeps hs fun _ _ => persistExit_keeps hs hp) fun closed => ?_
        cases closed
        · exact keeps_pure _
        · exact keeps_bind (keeps_captureSnapshot _ _) fun _ => keeps_pure _

theorem persistRaisedStop_keeps {updated : TrailingStopState} {atr : Decimal} {time : Time}
    {created : Bool} (hs : inv s.db) (hp : position ∈ openOf s.db symbol)
    (hraised : position.currentStop < updated.effectiveStop)
    (hhighest : position.highestCloseSinceEntry ≤ updated.highestClose)
    (h : persistRaisedStop position updated atr time s = (.ok created, s')) : inv s'.db := by
  rcases persistRaisedStop_ok h with hdb | hdb <;> rw [hdb]
  · have horders : ({ s.db with nextId := s.db.nextId + 1 } : Db).orders = s.db.orders := rfl
    exact Accounted.frame horders rfl rfl rfl rfl rfl rfl (Nat.le_succ _) hs
  · exact Accounted.raise atr time hp hraised hhighest hs

theorem updateTrailingStopForSymbol_keeps (time : Time) (candles : BySymbol Candle)
    (atrs : BySymbol Decimal) (constraints : BySymbol SymbolConstraints)
    (params : StrategyParameters) (symbol : Symbol) :
    Keeps inv (updateTrailingStopForSymbol time candles atrs constraints params symbol) := by
  intro s hs
  obtain ⟨_, hledger⟩ := Accounted.ledger hs
  unfold updateTrailingStopForSymbol
  rw [bind_of_ok (getOpenPositionForSymbol_run hledger.keys symbol)]
  rcases hhead : (openOf s.db symbol).head? with _ | position
  · exact hs
  · have hp : position ∈ openOf s.db symbol := List.mem_of_head? hhead
    refine bind_keeps ?_ fun _ => keeps_pure _
    unfold updateTrailingStopOf
    rcases candles symbol with _ | candle
    · exact hs
    rcases constraints symbol with _ | constraint
    · exact hs
    simp only
    by_cases hclosed : !candle.isClosed
    · rw [if_pos hclosed]
      exact hs
    · rw [if_neg hclosed]
      rcases hupdate : computeTrailingStopUpdate (trailingState position) candle.close
        ((atrs symbol).getD position.entryAtr14) params constraint.priceTickSize with e | updated
      · exact hs
      · rw [ofExcept_ok_bind]
        by_cases hle : updated.effectiveStop ≤ position.currentStop
        · rw [if_pos hle]
          exact hs
        · have hhighest : position.highestCloseSinceEntry ≤ updated.highestClose :=
            Strategy.Stops.updateTrailingStop_highest hupdate
          rw [if_neg hle]
          refine bind_keeps (scope_keeps hs fun _ _ =>
            persistRaisedStop_keeps hs hp (not_le.mp hle) hhighest) fun created => ?_
          cases created
          · exact keeps_pure _
          · exact keeps_bind (keeps_captureSnapshot _ _) fun _ => keeps_pure _

end Stops

section Intents

variable {s s' : Session Db} {db db' : Db} {trades : List Trade} {intent : TradeIntent}
  {ctx : FillProcessingContext}

theorem executeScheduledPaperFill_effect {w₀ : PaperWalletState} {risk : RiskEngine IntentKey}
    {processed : List IntentKey} {pending : List (PendingIntent IntentKey)} {r : FillOutcome}
    (hs : Ledger w₀ s.db) (hsource : Scheduled intent ctx.candleOpenTime s.db)
    (hrun : executeScheduledPaperFill risk intent ctx processed pending s = (.ok r, s')) :
    s'.db = s.db ∨ Unordered intent.intentId s.db ∧ FillEffect intent ctx s.db s'.db := by
  obtain ⟨trades, hbook⟩ := hs
  exact executeScheduledPaperFill_ok (entry_found hbook hsource) (fun entry => hbook.entryFill_absent _) hrun

theorem executeScheduledPaperFill_keeps {risk : RiskEngine IntentKey}
    {processed : List IntentKey} {pending : List (PendingIntent IntentKey)} {r : FillOutcome}
    (hs : inv s.db) (hsource : Scheduled intent ctx.candleOpenTime s.db)
    (hrun : executeScheduledPaperFill risk intent ctx processed pending s = (.ok r, s')) :
    inv s'.db := by
  obtain ⟨_, hledger⟩ := Accounted.ledger hs
  rcases executeScheduledPaperFill_effect hledger hsource hrun with hsame | ⟨hnone, heffect⟩
  · exact hsame ▸ hs
  · exact Accounted.fill hsource hnone heffect hs

/-- The locked runtime row allows new risk: READY, without an error, with a fresh heartbeat, neither
paused nor killed, and market data is ready. -/
def Authorized (config : PaperTradingConfig) (ready : Bool) (time : Time) (db : Db) : Prop :=
  ∃ runtime, db.runtimeState = some runtime ∧ runtime.status = .ready ∧
    errorSet runtime.lastError = false ∧ isStale config runtime time = false ∧ ready = true ∧
    runtime.paused = false ∧ runtime.killSwitch = false

theorem reasonIf_eq_nil {condition : Bool} {reason : String} :
    reasonIf condition reason = [] ↔ condition = false := by
  cases condition <;> simp [reasonIf]

theorem authorizationReasons_eq_nil {config : PaperTradingConfig} {ready : Bool} {time : Time}
    {runtime : RuntimeState} :
    authorizationReasons config ready time runtime = [] ↔ runtime.status = .ready ∧
      errorSet runtime.lastError = false ∧ isStale config runtime time = false ∧ ready = true ∧
      runtime.paused = false ∧ runtime.killSwitch = false := by
  simp [authorizationReasons, reasonIf_eq_nil]

theorem evaluateFinalEntryAuthorization_eq (config : PaperTradingConfig) (ready : Bool) (time : Time)
    (s : Session Db) : ∃ auth, evaluateFinalEntryAuthorization config ready time s = (.ok auth, s) ∧
      (auth.allowed ↔ Authorized config ready time s.db) ∧ (auth.reasons = [] ↔ auth.allowed) := by
  unfold evaluateFinalEntryAuthorization getRuntimeState
  rw [read_bind]
  rcases hruntime : s.db.runtimeState with _ | runtime
  · exact ⟨_, rfl, by simp [Authorized, hruntime], by simp⟩
  · refine ⟨_, rfl, ?_, by simp⟩
    simp only [List.isEmpty_iff, authorizationReasons_eq_nil, Authorized, hruntime, Option.some.injEq,
      exists_eq_left']

theorem forEach_read {α β : Type} {f : α → Query β} (hf : ∀ a s, ∃ b, f a s = (.ok b, s))
    (as : List α) (s : Session Db) : ∃ bs, forEach as f s = (.ok bs, s) := by
  induction as with
  | nil => exact ⟨[], rfl⟩
  | cons a as ih =>
    obtain ⟨b, hb⟩ := hf a s
    obtain ⟨bs, hbs⟩ := ih
    exact ⟨b :: bs, by rw [forEach, bind_of_ok hb, bind_of_ok hbs, pure_run]⟩

theorem pendingIntentsForSymbol_eq (time : Time) (contexts : BySymbol FillProcessingContext)
    (skip : List IntentKey) (symbol : Symbol) (s : Session Db) :
    ∃ pending, pendingIntentsForSymbol time contexts skip symbol s = (.ok pending, s) := by
  unfold pendingIntentsForSymbol
  rcases contexts symbol with _ | ctx
  · exact ⟨[], rfl⟩
  · simp only
    split_ifs
    · exact ⟨[], rfl⟩
    · exact ⟨_, rfl⟩

theorem pendingIntentsForOpenBatch_eq (time : Time) (symbol : Symbol)
    (contexts : BySymbol FillProcessingContext) (skip : List IntentKey) (s : Session Db) :
    ∃ pending, pendingIntentsForOpenBatch time symbol contexts skip s = (.ok pending, s) := by
  obtain ⟨batches, hbatches⟩ := forEach_read (pendingIntentsForSymbol_eq time contexts skip)
    (symbolProcessingOrder.dropWhile (· ≠ symbol)).tail s
  exact ⟨batches.flatten, by rw [pendingIntentsForOpenBatch, bind_of_ok hbatches, pure_run]⟩

theorem authorizeAndFill_ok {config : PaperTradingConfig} {risk : RiskEngine IntentKey} {time : Time}
    {contexts : BySymbol FillProcessingContext} {symbol : Symbol} {processed : List IntentKey}
    {ready : Bool} {r : Option FillOutcome}
    (h : authorizeAndFill config risk time contexts symbol ctx processed ready intent s =
      (.ok r, s')) :
    (∃ reason, s'.db = modifyIntent intent.intentId
      { status := .cancelled, rejectionReason := some reason } s.db) ∨
    (Authorized config ready time s.db ∧ ∃ t pending outcome,
      t.db = modifyIntent intent.intentId { status := .submittedToPaperEngine } s.db ∧
      executeScheduledPaperFill risk intent ctx processed pending t = (.ok outcome, s')) := by
  unfold authorizeAndFill at h
  obtain ⟨auth, hauth, hiff, _⟩ := evaluateFinalEntryAuthorization_eq config ready time s
  rw [bind_of_ok hauth] at h
  by_cases hallowed : auth.allowed
  · rw [if_pos hallowed] at h
    obtain ⟨_, t, hvalid, h⟩ := bind_eq_ok.mp h
    obtain ⟨_, rfl⟩ := ofExcept_eq_ok.mp hvalid
    obtain ⟨_, t, hsubmit, h⟩ := bind_eq_ok.mp h
    obtain ⟨pending, hpending⟩ :=
      pendingIntentsForOpenBatch_eq ctx.candleOpenTime symbol contexts processed t
    rw [bind_of_ok hpending] at h
    obtain ⟨outcome, t', hfill, hpure⟩ := bind_eq_ok.mp h
    cases hpure
    exact .inr ⟨hiff.mp hallowed, t, pending, outcome, updateIntentStatus_ok hsubmit, hfill⟩
  · rw [if_neg hallowed] at h
    obtain ⟨_, t, hvalid, h⟩ := bind_eq_ok.mp h
    obtain ⟨_, rfl⟩ := ofExcept_eq_ok.mp hvalid
    obtain ⟨_, t, hcancel, hpure⟩ := bind_eq_ok.mp h
    cases hpure
    exact .inl ⟨_, updateIntentStatus_ok hcancel⟩

/-- What a batch may rely on for the intents it has not reached yet. -/
structure Due (inv : Db → Prop) (time : Time) (rest : List TradeIntent) (db : Db) : Prop where
  account : inv db
  distinct : (rest.map (·.intentId)).Nodup
  stored : ∀ i ∈ rest, i ∈ db.intents ∧ i.status ≠ .filled ∧ i.scheduledFillTime = time

theorem authorizeAndFill_due {config : PaperTradingConfig} {risk : RiskEngine IntentKey} {time : Time}
    {contexts : BySymbol FillProcessingContext} {symbol : Symbol} {processed : List IntentKey}
    {ready : Bool} {r : Option FillOutcome} {rest : List TradeIntent}
    (hs : Due inv ctx.candleOpenTime (intent :: rest) s.db)
    (h : authorizeAndFill config risk time contexts symbol ctx processed ready intent s =
      (.ok r, s')) : Due inv ctx.candleOpenTime rest s'.db := by
  obtain ⟨hinv, hdistinct, hstored⟩ := hs
  obtain ⟨hmem, hstatus, htime⟩ := hstored intent List.mem_cons_self
  obtain ⟨hnot, hrest⟩ := List.nodup_cons.mp hdistinct
  obtain ⟨_, hledger⟩ := Accounted.ledger hinv
  have hnone := unordered_of_not_filled hledger hmem hstatus
  have hother : ∀ i ∈ rest, i.intentId ≠ intent.intentId := by
    exact fun i hi heq => hnot (List.mem_map.mpr ⟨i, hi, heq⟩)
  have hkept : ∀ u, ∀ i ∈ rest, i ∈ (modifyIntent intent.intentId u s.db).intents := by
    intro u i hi
    exact mem_modifyIntent.mpr ⟨i, (hstored i (List.mem_cons_of_mem _ hi)).1, if_neg (hother i hi)⟩
  suffices hgoal : inv s'.db ∧ ∀ i ∈ rest, i ∈ s'.db.intents from
    ⟨hgoal.1, hrest, fun i hi => ⟨hgoal.2 i hi, (hstored i (List.mem_cons_of_mem _ hi)).2⟩⟩
  rcases authorizeAndFill_ok h with ⟨reason, hdb⟩ | ⟨_, t, pending, outcome, hdb, hfill⟩
  · rw [hdb]
    exact ⟨Accounted.mark (.inr rfl) hnone hinv, hkept _⟩
  · have hinv' : inv t.db := by
      rw [hdb]
      exact Accounted.mark (.inl rfl) hnone hinv
    have hsource : Scheduled intent ctx.candleOpenTime t.db := by
      rw [hdb]
      exact ⟨_, mem_modifyIntent.mpr ⟨intent, hmem, if_pos rfl⟩, rfl, htime⟩
    obtain ⟨_, hledger'⟩ := Accounted.ledger hinv'
    rcases executeScheduledPaperFill_effect hledger' hsource hfill with hsame | ⟨hnone', heffect⟩
    · rw [hsame]
      exact ⟨hinv', hdb ▸ hkept _⟩
    · refine ⟨Accounted.fill hsource hnone' heffect hinv', fun i hi => ?_⟩
      exact fillEffect_intents (hdb ▸ hkept _ i hi) (hother i hi) heffect

theorem processIntent_due {config : PaperTradingConfig} {risk : RiskEngine IntentKey} {time : Time}
    {contexts : BySymbol FillProcessingContext} {ready : ℕ → Bool} {symbol : Symbol}
    (b : BatchState) (i : TradeIntent) (rest : List TradeIntent) (s : Session Db)
    (hs : Due inv ctx.candleOpenTime (i :: rest) s.db) :
    Due inv ctx.candleOpenTime rest
      (processIntent config risk time contexts ready symbol ctx b i s).2.db := by
  have hskip : Due inv ctx.candleOpenTime rest s.db :=
    ⟨hs.account, (List.nodup_cons.mp hs.distinct).2,
      fun j hj => hs.stored j (List.mem_cons_of_mem _ hj)⟩
  unfold processIntent
  by_cases htime : i.scheduledFillTime ≠ ctx.candleOpenTime
  · rw [if_pos htime]
    exact hskip
  · rw [if_neg htime]
    refine bind_keeps ?_ fun _ => keeps_pure _
    exact scope_keeps hskip fun _ _ => authorizeAndFill_due hs

theorem scheduledIntents_due {db : Db} (hs : inv db) (symbol : Symbol) (time : Time) :
    Due inv time ((db.intents.filter (isDueIntent symbol time)).insertionSort
      fun a b => a.createdAt ≤ b.createdAt) db := by
  have hperm := List.perm_insertionSort (fun a b : TradeIntent => a.createdAt ≤ b.createdAt)
    (db.intents.filter (isDueIntent symbol time))
  refine ⟨hs, ?_, fun i hi => ?_⟩
  · rw [(hperm.map _).nodup_iff]
    obtain ⟨_, trades, hbook⟩ := Accounted.ledger hs
    exact hbook.intentIds.sublist (List.filter_sublist.map _)
  · obtain ⟨hmem, hdue⟩ := List.mem_filter.mp (hperm.mem_iff.mp hi)
    simp only [isDueIntent, decide_eq_true_eq] at hdue
    refine ⟨hmem, fun hfilled => ?_, hdue.2.1⟩
    simp [hfilled] at hdue

theorem processSymbolForOpen_keeps (config : PaperTradingConfig) (risk : RiskEngine IntentKey)
    (time : Time) (contexts : BySymbol FillProcessingContext) (ready : ℕ → Bool)
    (b : BatchState × List FillBatchResult) (symbol : Symbol) :
    Keeps inv (processSymbolForOpen config risk time contexts ready b symbol) := by
  unfold processSymbolForOpen
  rcases contexts symbol with _ | ctx
  · exact keeps_pure _
  · simp only
    split_ifs
    · exact keeps_pure _
    · refine keeps_read_bind fun s hs => ?_
      refine bind_keeps ?_ fun _ => keeps_pure _
      exact (forFold_rest processIntent_due (fun rest db h => ⟨h.account, by simp, by simp⟩) _ _ s
        (scheduledIntents_due hs symbol ctx.candleOpenTime)).account

theorem processScheduledIntentsForOpen_keeps (config : PaperTradingConfig)
    (risk : RiskEngine IntentKey) (time : Time) (contexts : BySymbol FillProcessingContext)
    (ready : ℕ → Bool) :
    Keeps inv (processScheduledIntentsForOpen config risk time contexts ready) :=
  keeps_bind (keeps_forFold (processSymbolForOpen_keeps config risk time contexts ready) _)
    fun _ => keeps_pure _

end Intents

section Creation

variable {s s' : Session Db}

/-- The gates that look at the account let a new entry pass. -/
def Vacant (gates : EntryGateContext) : Prop :=
  gates.hasSymbolPosition = false ∧ gates.hasNonterminalIntent = false

theorem vacant_of_checkEntryGates {gates : EntryGateContext} {eval : StrategyEvaluation} {maxOpenPositions : ℕ}
    (h : checkEntryGates gates eval maxOpenPositions = []) : Vacant gates := by
  simp only [checkEntryGates, List.append_eq_nil_iff, reasonIf_eq_nil] at h
  exact ⟨h.1.1.1.1.1.1.1.2, h.1.1.1.1.1.1.2⟩

theorem createIntentFromEvaluation_ok {config : PaperTradingConfig}
    {evaluation : StrategyEvaluationRecord} {eval : StrategyEvaluation} {gates : EntryGateContext}
    {createdAt authorizationAt : Time} {ready : Bool} {r : Option TradeIntent × Bool × List String}
    (h : createIntentFromEvaluation config evaluation eval gates createdAt authorizationAt ready s =
      (.ok r, s')) :
    (∃ n, s.db.nextId ≤ n ∧ s'.db = { s.db with nextId := n }) ∨
    (Authorized config ready authorizationAt s.db ∧ Vacant gates ∧ ∃ signalType price stop,
      s'.db = { s.db with
        intents := s.db.intents ++
          [scheduledIntent s.db.nextId evaluation eval signalType price stop createdAt]
        nextId := s.db.nextId + 1 }) := by
  unfold createIntentFromEvaluation at h
  obtain ⟨auth, hauth, hiff, hreasons⟩ :=
    evaluateFinalEntryAuthorization_eq config ready authorizationAt s
  rw [bind_of_ok hauth] at h
  simp only at h
  split_ifs at h with hblocked
  · cases h
    exact .inl ⟨s.db.nextId, le_refl _, rfl⟩
  · obtain ⟨hgates, hauthorized⟩ := List.append_eq_nil_iff.mp (Keyed.eraseDups_eq_nil (not_not.mp hblocked))
    have hallowed : Authorized config ready authorizationAt s.db := by
      rw [← hiff, ← hreasons]
      exact hauthorized
    obtain ⟨hposition, hintent⟩ := vacant_of_checkEntryGates hgates
    have hvacant : Vacant gates := ⟨hposition, hintent⟩
    rcases hsel : eval.selectedEntryType with _ | signalType <;> simp only [hsel] at h
    · cases h
    rcases hprice : eval.signalIntent.entryPrice with _ | price <;> simp only [hprice] at h
    · cases h
    rcases hstop : eval.signalIntent.stopInitial with _ | stop <;> simp only [hstop] at h
    · cases h
    obtain ⟨inserted, t, hinsert, hpure⟩ := bind_eq_ok.mp (newId_bind_eq_ok.mp h)
    cases hpure
    obtain ⟨row, hcolumns, ⟨_, hdb⟩ | ⟨_, hdb⟩⟩ := insertOrGetTradeIntent_ok hinsert
    · exact .inl ⟨s.db.nextId + 1, Nat.le_succ _, hdb⟩
    · obtain ⟨entry, stop, _, _, rfl⟩ := intentColumns_eq_some hcolumns
      exact .inr ⟨hallowed, hvacant, signalType, entry, stop, hdb⟩

theorem createIntentFromEvaluation_keeps {config : PaperTradingConfig}
    {evaluation : StrategyEvaluationRecord} {eval : StrategyEvaluation} {gates : EntryGateContext}
    {createdAt authorizationAt : Time} {ready : Bool} {r : Option TradeIntent × Bool × List String}
    (hs : inv s.db)
    (h : createIntentFromEvaluation config evaluation eval gates createdAt authorizationAt ready s =
      (.ok r, s')) : inv s'.db := by
  rcases createIntentFromEvaluation_ok h with ⟨n, hn, hdb⟩ | ⟨_, _, signalType, price, stop, hdb⟩ <;> rw [hdb]
  · have horders : ({ s.db with nextId := n } : Db).orders = s.db.orders := rfl
    exact Accounted.frame horders rfl rfl rfl rfl rfl rfl hn hs
  · exact Accounted.schedule rfl rfl hs

end Creation

end TradingBot.Paper.Account
