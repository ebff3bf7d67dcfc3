import TradingBot.Paper.Account
import TradingBot.Paper.StopJobs

namespace TradingBot.Paper.LiveEntries

open Market.Models Strategy.Models Exceptions Backtester.Lifecycle Constraints Library.Transaction
open Paper.Models Paper.Repository
open Paper.Stops Paper.Execution Paper.Lifecycle Paper.MarketEvents Paper.SchedulerContext Paper.Scheduler
open Paper.PositionTable Paper.Effects Paper.Polls Paper.Bridge Paper.ConfigurationRecovery Paper.EventRules
open PaperTradingScheduler MarketEventBridge
open Paper.StopJobs
open Paper.Bookkeeping (keeps_ofExcept keeps_scalarOneOrNone)

section Definitions

def isLive (i : TradeIntent) : Bool := !terminalIntentStatuses.contains i.status

def liveIntents (db : Db) (symbol : Symbol) : List TradeIntent :=
  db.intents.filter fun i => decide (i.symbol = symbol) && isLive i

structure OneLiveEntry (db : Db) : Prop where
  ids : (db.intents.map (·.intentId)).Nodup
  below : ∀ i ∈ db.intents, i.intentId < db.nextId
  single : ∀ symbol, (liveIntents db symbol).length ≤ 1
  apart : ∀ symbol, liveIntents db symbol ≠ [] → openOf db symbol = []

def withoutIntents (base : Db) : Db := { base with intents := [] }

/-- What changes the tables: the polls, the operator's recoveries, and the row of the runtime, which
heartbeats and control requests write. -/
inductive Step
  | poll (p : Poll)
  | recover (call : RecoverCall)
  | runtime (state : Option RuntimeState)

def Step.run (db : Db) : Step → Db
  | .poll p => (p.run db).2
  | .recover call => (call.result db).2.db
  | .runtime state => { db with runtimeState := state }

/-- The tables after some steps and some of the turns of a poll. -/
def reached (db : Db) (steps : List Step) (turns : List Turn) (faults : List Bool) : Db :=
  (forEach turns takeTurn ⟨steps.foldl Step.run db, faults⟩).2.db

end Definitions

section Tables

variable {db db' : Db} {symbol : Symbol} {i : TradeIntent}

theorem mem_liveIntents : i ∈ liveIntents db symbol ↔ i ∈ db.intents ∧ i.symbol = symbol ∧ isLive i := by
  simp [liveIntents]

theorem oneLiveEntry_of_noIntents (h : db.intents = []) : OneLiveEntry db := by
  have hlive : ∀ symbol, liveIntents db symbol = [] := fun symbol => by simp [liveIntents, h]
  refine ⟨by simp [h], by simp [h], fun symbol => by simp [hlive], fun symbol hne => ?_⟩
  exact absurd (hlive symbol) hne

theorem OneLiveEntry.frame (h : OneLiveEntry db) (hintents : db'.intents = db.intents)
    (hids : db.nextId ≤ db'.nextId) (hopen : ∀ symbol, openOf db symbol = [] → openOf db' symbol = []) :
    OneLiveEntry db' := by
  have hlive : liveIntents db' = liveIntents db := by
    funext symbol
    unfold liveIntents
    rw [hintents]
  refine ⟨?_, fun i hi => ?_, fun symbol => ?_, fun symbol hne => ?_⟩
  · rw [hintents]
    exact h.ids
  · rw [hintents] at hi
    exact (h.below i hi).trans_le hids
  · rw [hlive]
    exact h.single symbol
  · rw [hlive] at hne
    exact hopen symbol (h.apart symbol hne)

theorem OneLiveEntry.same (h : OneLiveEntry db) (hintents : db'.intents = db.intents)
    (hpositions : db'.positions = db.positions) (hids : db.nextId ≤ db'.nextId) : OneLiveEntry db' :=
  h.frame hintents hids fun symbol hnone => by rwa [openOf, hpositions]

theorem openOf_modifyPosition {positionId : Id} {f : PaperPosition → PaperPosition}
    (hsymbol : ∀ p, (f p).symbol = p.symbol) (hclosed : ∀ p, isOpen (f p) → isOpen p)
    (h : openOf db symbol = []) : openOf (modifyPosition positionId f db) symbol = [] := by
  rw [List.eq_nil_iff_forall_not_mem]
  intro p hp
  obtain ⟨hp, hsame, hopen⟩ := mem_openOf.mp hp
  obtain ⟨q, hq, rfl⟩ := List.mem_map.mp hp
  have hnone : q ∉ openOf db symbol := by simp [h]
  by_cases hid : q.positionId = positionId
  · rw [if_pos hid] at hsame hopen
    exact hnone (mem_openOf.mpr ⟨hq, (hsymbol q).symm.trans hsame, hclosed q hopen⟩)
  · rw [if_neg hid] at hsame hopen
    exact hnone (mem_openOf.mpr ⟨hq, hsame, hopen⟩)

theorem OneLiveEntry.eq (h : OneLiveEntry db) {j : TradeIntent} (hi : i ∈ db.intents) (hj : j ∈ db.intents)
    (hsymbol : i.symbol = j.symbol) (hlive : isLive i) (hlive' : isLive j) : i = j := by
  have hmem : i ∈ liveIntents db j.symbol := mem_liveIntents.mpr ⟨hi, hsymbol, hlive⟩
  have hmem' : j ∈ liveIntents db j.symbol := mem_liveIntents.mpr ⟨hj, rfl, hlive'⟩
  have hsingle := h.single j.symbol
  match hlist : liveIntents db j.symbol with
  | [] => simp [hlist] at hmem
  | [k] =>
    rw [hlist, List.mem_singleton] at hmem hmem'
    rw [hmem, hmem']
  | _ :: _ :: _ => simp [hlist] at hsingle

theorem getNonterminalIntentForSymbol_run (h : OneLiveEntry db) (symbol : Symbol) (faults : List Bool) :
    getNonterminalIntentForSymbol symbol ⟨db, faults⟩ = (.ok (liveIntents db symbol).head?, ⟨db, faults⟩) := by
  have hsingle := h.single symbol
  have hread : getNonterminalIntentForSymbol symbol ⟨db, faults⟩ =
      scalarOneOrNone (liveIntents db symbol) ⟨db, faults⟩ := rfl
  rw [hread]
  match hlist : liveIntents db symbol with
  | [] => rfl
  | [_] => rfl
  | _ :: _ :: _ => simp [hlist] at hsingle

theorem OneLiveEntry.eq_of_id (h : OneLiveEntry db) {j : TradeIntent} (hi : i ∈ db.intents)
    (hj : j ∈ db.intents) (hid : j.intentId = i.intentId) : j = i :=
  List.inj_on_of_nodup_map h.ids hj hi hid

theorem liveIntents_modifyIntent_length (h : OneLiveEntry db) (u : IntentUpdate) (hi : i ∈ db.intents)
    (hlive : isLive i) (symbol : Symbol) :
    (liveIntents (modifyIntent i.intentId u db) symbol).length ≤ (liveIntents db symbol).length := by
  unfold liveIntents Effects.modifyIntent
  rw [List.filter_map, List.length_map, ← List.countP_eq_length_filter, ← List.countP_eq_length_filter]
  refine List.countP_mono_left fun j hj hcounts => ?_
  simp only [Function.comp_apply, Bool.and_eq_true, decide_eq_true_eq] at hcounts ⊢
  by_cases hid : j.intentId = i.intentId
  · obtain rfl := h.eq_of_id hi hj hid
    rw [if_pos rfl] at hcounts
    exact ⟨hcounts.1, hlive⟩
  · rw [if_neg hid] at hcounts
    exact hcounts

theorem OneLiveEntry.modifyIntent (h : OneLiveEntry db) (u : IntentUpdate) (hi : i ∈ db.intents)
    (hlive : isLive i) : OneLiveEntry (modifyIntent i.intentId u db) := by
  have hlength := liveIntents_modifyIntent_length h u hi hlive
  refine ⟨?_, fun j hj => ?_, fun symbol => (hlength symbol).trans (h.single symbol), fun symbol hne => ?_⟩
  · rw [TradeBook.modifyIntent_ids]
    exact h.ids
  · obtain ⟨k, hk, rfl⟩ := List.mem_map.mp hj
    split_ifs
    · exact h.below k hk
    · exact h.below k hk
  · refine h.apart symbol fun hnone => hne ?_
    have hzero := hlength symbol
    rw [hnone, List.length_nil, Nat.le_zero, List.length_eq_zero_iff] at hzero
    exact hzero

theorem OneLiveEntry.enter (h : OneLiveEntry db) {u : IntentUpdate} {p : PaperPosition} (hi : i ∈ db.intents)
    (hlive : isLive i) (hu : u.status = .filled) (hsymbol : p.symbol = i.symbol)
    (hintents : db'.intents = (Effects.modifyIntent i.intentId u db).intents)
    (hpositions : db'.positions = db.positions ++ [p]) (hids : db.nextId ≤ db'.nextId) : OneLiveEntry db' := by
  have hmodified := h.modifyIntent u hi hlive
  have hlists : liveIntents db' = liveIntents (Effects.modifyIntent i.intentId u db) := by
    funext symbol
    unfold liveIntents
    rw [hintents]
  have hnone : liveIntents (Effects.modifyIntent i.intentId u db) i.symbol = [] := by
    rw [List.eq_nil_iff_forall_not_mem]
    intro j hj
    obtain ⟨hj, hsame, hjlive⟩ := mem_liveIntents.mp hj
    obtain ⟨k, hk, rfl⟩ := List.mem_map.mp hj
    by_cases hid : k.intentId = i.intentId
    · rw [if_pos hid] at hjlive
      simp [isLive, IntentUpdate.apply, hu, terminalIntentStatuses] at hjlive
    · rw [if_neg hid] at hsame hjlive
      exact hid (congrArg TradeIntent.intentId (h.eq hk hi hsame hjlive hlive))
  refine ⟨?_, fun j hj => ?_, fun symbol => ?_, fun symbol hne => ?_⟩
  · rw [hintents]
    exact hmodified.ids
  · rw [hintents] at hj
    exact (hmodified.below j hj).trans_le hids
  · rw [hlists]
    exact hmodified.single symbol
  · rw [hlists] at hne
    have hother : i.symbol ≠ symbol := fun heq => hne (heq ▸ hnone)
    have hbefore : openOf db symbol = [] := hmodified.apart symbol hne
    unfold openOf at hbefore ⊢
    rw [hpositions, List.filter_append, hbefore]
    simp [hsymbol, hother]

theorem OneLiveEntry.insert (h : OneLiveEntry db) (hnone : liveIntents db i.symbol = [])
    (hopen : openOf db i.symbol = []) (hid : i.intentId = db.nextId) (hintents : db'.intents = db.intents ++ [i])
    (hpositions : db'.positions = db.positions) (hids : db.nextId < db'.nextId) : OneLiveEntry db' := by
  have hopenOf : openOf db' = openOf db := by
    funext symbol
    unfold openOf
    rw [hpositions]
  have hlists : ∀ symbol ≠ i.symbol, liveIntents db' symbol = liveIntents db symbol := by
    intro symbol hne
    unfold liveIntents
    rw [hintents, List.filter_append]
    simp [hne.symm]
  refine ⟨?_, fun j hj => ?_, fun symbol => ?_, fun symbol hne => ?_⟩
  · rw [hintents, List.map_append, List.nodup_append]
    refine ⟨h.ids, by simp, fun a ha b hb hab => ?_⟩
    obtain ⟨j, hj, rfl⟩ := List.mem_map.mp ha
    have hlt := h.below j hj
    rw [List.map_singleton, List.mem_singleton, hid] at hb
    rw [hab, hb] at hlt
    exact lt_irrefl _ hlt
  · rw [hintents] at hj
    rcases List.mem_append.mp hj with hj | hj
    · exact (h.below j hj).trans hids
    · rw [List.mem_singleton.mp hj, hid]
      exact hids
  · by_cases hsame : symbol = i.symbol
    · subst hsame
      unfold liveIntents at hnone ⊢
      rw [hintents, List.filter_append, hnone, List.nil_append]
      exact List.length_filter_le _ _
    · rw [hlists symbol hsame]
      exact h.single symbol
  · rw [hopenOf]
    by_cases hsame : symbol = i.symbol
    · rw [hsame]
      exact hopen
    · rw [hlists symbol hsame] at hne
      exact h.apart symbol hne

end Tables

section Stops

theorem stopRules : StopRules OneLiveEntry where
  frame := fun hids h => h.same rfl rfl hids
  exited := by
    intro db position trigger exit time h
    refine h.frame rfl (Nat.le_succ _) fun symbol hnone => ?_
    refine openOf_modifyPosition (f := closePosition exit time) (fun p => rfl) (fun p hopen => ?_) hnone
    simp [isOpen, closePosition] at hopen
  raised := by
    intro db position updated atr time h
    refine h.frame rfl (Nat.le_succ _) fun symbol hnone => ?_
    exact openOf_modifyPosition (f := raiseStop updated) (fun p => rfl) (fun p hopen => hopen) hnone

end Stops

section Fills

variable {s s' : Session Db} {intent : TradeIntent}

inductive FillRows (intent : TradeIntent) (db db' : Db) : Prop
  | nothing (hintents : db'.intents = db.intents) (hpositions : db'.positions = db.positions)
      (hids : db.nextId ≤ db'.nextId)
  | rejected (u : IntentUpdate) (hdb : db' = modifyIntent intent.intentId u db)
  | filled (u : IntentUpdate) (p : PaperPosition) (hu : u.status = .filled) (hsymbol : p.symbol = intent.symbol)
      (hintents : db'.intents = (modifyIntent intent.intentId u db).intents)
      (hpositions : db'.positions = db.positions ++ [p]) (hids : db.nextId ≤ db'.nextId)

theorem insertOrGetPaperOrder_frame {row : PaperOrder} {r : PaperOrder × Bool}
    (h : insertOrGetPaperOrder row s = (.ok r, s')) : ∃ orders, s'.db = { s.db with orders := orders } := by
  unfold insertOrGetPaperOrder at h
  rw [read_bind] at h
  rcases hfind : s.db.orders.find? (·.intentId = row.intentId) with _ | existing <;> simp only [hfind] at h
  · simp only [require_bind_eq_ok] at h
    obtain ⟨_, _, h⟩ := h
    obtain ⟨_, t, hwrite, hpure⟩ := bind_eq_ok.mp h
    cases hpure
    exact ⟨_, write_ok_db hwrite⟩
  · obtain ⟨_, t, hflush, hpure⟩ := bind_eq_ok.mp h
    cases hpure
    exact ⟨_, flush_ok_db hflush⟩

theorem persistSuccessfulFill_rows {entry : EntryExecutionApproved} {openRef atr14 : Decimal}
    {candleOpenTime : Time} {r : TransactionalFillResult}
    (h : persistSuccessfulFill intent entry openRef candleOpenTime atr14 s = (.ok r, s')) :
    FillRows intent s.db s'.db ∧ s'.db.runtimeState = s.db.runtimeState := by
  have h := newId_bind_eq_ok.mp h
  obtain ⟨⟨order, orderCreated⟩, t₁, horder, h⟩ := bind_eq_ok.mp h
  obtain ⟨orders, hdb₁⟩ := insertOrGetPaperOrder_frame horder
  have h := newId_bind_eq_ok.mp h
  obtain ⟨⟨fill, created⟩, t₂, hfill, h⟩ := bind_eq_ok.mp h
  have hdb₂ : ∃ fills, t₂.db = { t₁.db with nextId := t₁.db.nextId + 1, fills := fills } := by
    rcases insertOrGetPaperFill_ok hfill with ⟨_, _, hdb⟩ | ⟨_, _, _, hdb⟩
    · exact ⟨_, hdb⟩
    · exact ⟨_, hdb⟩
  obtain ⟨fills, hdb₂⟩ := hdb₂
  cases created with
  | false =>
    simp only [Bool.false_eq_true, if_false, getIntent, getPositionForIntent] at h
    rw [read_bind] at h
    obtain ⟨position, t₃, hposition, hpure⟩ := bind_eq_ok.mp h
    rw [read_bind] at hposition
    obtain ⟨_, rfl⟩ := scalarOneOrNone_eq_ok.mp hposition
    cases hpure
    rw [hdb₂, hdb₁]
    exact ⟨.nothing rfl rfl (Nat.le_add_right _ 2), rfl⟩
  | true =>
    simp only [↓reduceIte] at h
    obtain ⟨_, t₃, hwallet, h⟩ := bind_eq_ok.mp h
    have hdb₃ := updateWallet_ok hwallet
    have h := newId_bind_eq_ok.mp h
    obtain ⟨position, t₄, hposition, h⟩ := bind_eq_ok.mp h
    obtain ⟨_, _, hdb₄⟩ := createPosition_ok hposition
    obtain ⟨updated, t₅, hintent, hpure⟩ := bind_eq_ok.mp h
    have hdb₅ := updateIntentStatus_ok hintent
    cases hpure
    rw [hdb₅, hdb₄]
    refine ⟨.filled { status := .filled, approvedQuantity := some entry.quantity }
      (entryPosition t₃.db.nextId intent entry atr14 candleOpenTime) rfl rfl ?_ ?_ ?_, ?_⟩
    · simp only [modifyIntent, hdb₃, hdb₂, hdb₁]
    · simp only [modifyIntent, hdb₃, hdb₂, hdb₁]
    · simp only [modifyIntent, hdb₃, hdb₂, hdb₁]
      exact Nat.le_add_right _ 3
    · simp only [modifyIntent, hdb₃, hdb₂, hdb₁]

theorem executeScheduledPaperFill_rows {risk : RiskEngine IntentKey} {ctx : FillProcessingContext}
    {processed : List IntentKey} {pending : List (PendingIntent IntentKey)} {r}
    (h : executeScheduledPaperFill risk intent ctx processed pending s = (.ok r, s')) :
    FillRows intent s.db s'.db ∧ s'.db.runtimeState = s.db.runtimeState := by
  have hsame : FillRows intent s.db s.db ∧ s.db.runtimeState = s.db.runtimeState := ⟨.nothing rfl rfl le_rfl, rfl⟩
  unfold executeScheduledPaperFill at h
  obtain ⟨_, t, hconstraints, h⟩ := bind_eq_ok.mp h
  obtain ⟨_, rfl⟩ := ofExcept_eq_ok.mp hconstraints
  obtain ⟨existing, t, hload, h⟩ := bind_eq_ok.mp h
  obtain ⟨rfl, _⟩ := loadExistingFill_ok hload
  cases existing with
  | some result =>
    cases h
    exact hsame
  | none =>
    simp only [getOpenPositions] at h
    rw [read_bind] at h
    split_ifs at h
    · cases h
      exact hsame
    · rw [getWallet, read_bind] at h
      cases hwallet : s.db.wallet with
      | none =>
        simp only [hwallet] at h
        cases h
      | some wallet =>
        simp only [hwallet] at h
        obtain ⟨entry, t, hcompute, h⟩ := bind_eq_ok.mp h
        obtain ⟨_, rfl⟩ := ofExcept_eq_ok.mp hcompute
        cases entry with
        | inl rejected =>
          obtain ⟨_, t, hreject, hpure⟩ := bind_eq_ok.mp h
          obtain ⟨_, t', hupdate, hunit⟩ := bind_eq_ok.mp (scope_eq_ok.mp hreject)
          cases hpure
          cases hunit
          rw [updateIntentStatus_ok hupdate]
          exact ⟨.rejected _ rfl, rfl⟩
        | inr approved =>
          obtain ⟨result, t, hpersist, hpure⟩ := bind_eq_ok.mp h
          cases hpure
          exact persistSuccessfulFill_rows (scope_eq_ok.mp hpersist)

theorem oneLiveEntry_fillRows {db db' : Db} (h : OneLiveEntry db) (hi : intent ∈ db.intents) (hlive : isLive intent)
    (hrows : FillRows intent db db') : OneLiveEntry db' := by
  cases hrows with
  | nothing hintents hpositions hids => exact h.same hintents hpositions hids
  | rejected u hdb =>
    rw [hdb]
    exact h.modifyIntent u hi hlive
  | filled u p hu hsymbol hintents hpositions hids =>
    exact h.enter hi hlive hu hsymbol hintents hpositions hids

theorem oneLiveEntry_authorizeAndFill {config : PaperTradingConfig} {risk : RiskEngine IntentKey} {time : Time}
    {contexts : BySymbol FillProcessingContext} {symbol : Symbol} {ctx : FillProcessingContext}
    {processed : List IntentKey} {ready : Bool} {r : Option FillOutcome} (hs : OneLiveEntry s.db)
    (hi : intent ∈ s.db.intents) (hlive : isLive intent)
    (h : authorizeAndFill config risk time contexts symbol ctx processed ready intent s = (.ok r, s')) :
    OneLiveEntry s'.db := by
  rcases Account.authorizeAndFill_ok h with ⟨reason, hdb⟩ | ⟨_, t, pending, outcome, hdb, hfill⟩
  · rw [hdb]
    exact hs.modifyIntent _ hi hlive
  · have ht : OneLiveEntry t.db := by
      rw [hdb]
      exact hs.modifyIntent _ hi hlive
    have hrows := (executeScheduledPaperFill_rows hfill).1
    -- the row of the intent is the submitted one now, with the same key and symbol
    have hsubmitted : { intent with status := TradeIntentStatus.submittedToPaperEngine } ∈ t.db.intents := by
      rw [hdb]
      exact TradeBook.mem_modifyIntent.mpr ⟨intent, hi, by simp [IntentUpdate.apply]⟩
    refine oneLiveEntry_fillRows ht hsubmitted rfl ?_
    cases hrows with
    | nothing hintents hpositions hids => exact .nothing hintents hpositions hids
    | rejected u hdb => exact .rejected u hdb
    | filled u p hu hsymbol hintents hpositions hids => exact .filled u p hu hsymbol hintents hpositions hids

theorem keeps_processIntent_of_live {config : PaperTradingConfig} {risk : RiskEngine IntentKey} {time : Time}
    {contexts : BySymbol FillProcessingContext} {ready : ℕ → Bool} {symbol : Symbol} {ctx : FillProcessingContext}
    {b : BatchState} (hs : OneLiveEntry s.db) (hi : intent ∈ s.db.intents) (hlive : isLive intent) :
    OneLiveEntry (processIntent config risk time contexts ready symbol ctx b intent s).2.db := by
  unfold processIntent
  split_ifs
  · exact hs
  · refine bind_keeps ?_ fun _ => keeps_pure _
    exact scope_keeps hs fun _ _ => oneLiveEntry_authorizeAndFill hs hi hlive

theorem isLive_of_isDueIntent {symbol : Symbol} {time : Time} (h : isDueIntent symbol time intent) :
    intent.symbol = symbol ∧ isLive intent := by
  simp only [isDueIntent, decide_eq_true_eq] at h
  refine ⟨h.1, ?_⟩
  rcases h.2.2 with hstatus | hstatus
  · simp [isLive, hstatus, terminalIntentStatuses]
  · simp [isLive, hstatus, terminalIntentStatuses]

theorem keeps_processSymbolForOpen (config : PaperTradingConfig) (risk : RiskEngine IntentKey) (time : Time)
    (contexts : BySymbol FillProcessingContext) (ready : ℕ → Bool) (b : BatchState × List FillBatchResult)
    (symbol : Symbol) : Keeps OneLiveEntry (processSymbolForOpen config risk time contexts ready b symbol) := by
  unfold processSymbolForOpen
  cases contexts symbol with
  | none => exact keeps_pure _
  | some ctx =>
    dsimp only
    split_ifs
    · exact keeps_pure _
    · refine keeps_read_bind fun s hs => bind_keeps ?_ fun _ => keeps_pure _
      have hdue : (s.db.intents.filter (isDueIntent symbol ctx.candleOpenTime)).Sublist (liveIntents s.db symbol) := by
        refine List.monotone_filter_right _ fun i hi => ?_
        simpa using isLive_of_isDueIntent hi
      have hperm := List.perm_insertionSort (fun a b : TradeIntent => a.createdAt ≤ b.createdAt)
        (s.db.intents.filter (isDueIntent symbol ctx.candleOpenTime))
      have hlength := hperm.length_eq.trans_le (hdue.length_le.trans (hs.single symbol))
      have hlive : ∀ i ∈ (s.db.intents.filter (isDueIntent symbol ctx.candleOpenTime)).insertionSort
          (fun a b => a.createdAt ≤ b.createdAt), i ∈ liveIntents s.db symbol :=
        fun i hi => hdue.subset (hperm.subset hi)
      match hlist : (s.db.intents.filter (isDueIntent symbol ctx.candleOpenTime)).insertionSort
          (fun a b => a.createdAt ≤ b.createdAt) with
      | [] =>
        rw [hlist]
        exact hs
      | [i] =>
        rw [hlist]
        obtain ⟨hi, _, hlive⟩ := mem_liveIntents.mp (hlive i (by simp [hlist]))
        exact bind_keeps (keeps_processIntent_of_live hs hi hlive) fun _ => keeps_pure _
      | _ :: _ :: _ => simp [hlist] at hlength

theorem keeps_processScheduledIntentsForOpen (config : PaperTradingConfig) (risk : RiskEngine IntentKey)
    (time : Time) (contexts : BySymbol FillProcessingContext) (ready : ℕ → Bool) :
    Keeps OneLiveEntry (processScheduledIntentsForOpen config risk time contexts ready) :=
  keeps_bind (keeps_forFold (keeps_processSymbolForOpen config risk time contexts ready) _) fun _ => keeps_pure _

end Fills

section Evaluation

variable {s s' : Session Db} {symbol : Symbol} {gates : EntryGateContext}

def Accurate (gates : EntryGateContext) (symbol : Symbol) (db : Db) : Prop :=
  Account.Vacant gates → liveIntents db symbol = [] ∧ openOf db symbol = []

/-- The state in which the evaluation of a symbol is stored. -/
def Gated (gates : EntryGateContext) (symbol : Symbol) (db : Db) : Prop :=
  OneLiveEntry db ∧ Accurate gates symbol db

theorem Gated.same {db db' : Db} (h : Gated gates symbol db) (hintents : db'.intents = db.intents)
    (hpositions : db'.positions = db.positions) (hids : db.nextId ≤ db'.nextId) : Gated gates symbol db' := by
  refine ⟨h.1.same hintents hpositions hids, fun hvacant => ?_⟩
  have hnone := h.2 hvacant
  unfold liveIntents openOf at hnone ⊢
  rwa [hintents, hpositions]

theorem buildEntryGateContext_ok {entryReady ready paused kill : Bool}
    (h : buildEntryGateContext symbol entryReady ready paused kill s = (.ok gates, s')) :
    s' = s ∧ Accurate gates symbol s.db := by
  unfold buildEntryGateContext getOpenPositions getNonterminalIntentForSymbol at h
  rw [read_bind] at h
  obtain ⟨nonterminal, t, hscalar, h⟩ := bind_eq_ok.mp h
  rw [read_bind] at hscalar
  obtain ⟨hrows, rfl⟩ := scalarOneOrNone_eq_ok.mp hscalar
  cases h
  refine ⟨rfl, ?_⟩
  rintro ⟨hposition, hintent⟩
  simp only at hposition hintent
  constructor
  · cases nonterminal with
    | none => exact hrows
    | some i => cases hintent
  · rw [List.eq_nil_iff_forall_not_mem]
    intro p hp
    obtain ⟨hp, hsymbol, hopen⟩ := mem_openOf.mp hp
    rw [List.any_eq_false] at hposition
    exact hposition p (List.mem_filter.mpr ⟨hp, hopen⟩) (by simp [hsymbol])

theorem storedEvaluation_symbol {row : StrategyEvaluationRecord} {r : StrategyEvaluationRecord × Bool}
    (h : insertOrGetStrategyEvaluation row s = (.ok r, s')) :
    r.1.symbol = row.symbol ∧ ∃ evaluations, s'.db = { s.db with evaluations := evaluations } := by
  rcases insertOrGetStrategyEvaluation_ok h with ⟨hfind, hdb⟩ | ⟨_, rfl, hdb⟩
  · have hsame := List.find?_some hfind
    simp only [sameEvaluation, decide_eq_true_eq] at hsame
    exact ⟨hsame.2.1, _, hdb⟩
  · exact ⟨rfl, _, hdb⟩

theorem oneLiveEntry_recordEvaluation {config : PaperTradingConfig} {row : StrategyEvaluationRecord}
    {authorizationAt : Time} {ready : Bool} {r : EvaluationResult} (hs : Gated gates row.symbol s.db)
    (h : recordEvaluation config row gates authorizationAt ready s = (.ok r, s')) : OneLiveEntry s'.db := by
  obtain ⟨⟨evaluation, created⟩, t, hinsert, h⟩ := bind_eq_ok.mp h
  obtain ⟨hsymbol, evaluations, hdb⟩ := storedEvaluation_symbol hinsert
  have ht : Gated gates row.symbol t.db := by
    rw [hdb]
    exact hs.same rfl rfl le_rfl
  simp only at h hsymbol
  split_ifs at h
  · obtain ⟨created, u, hcreate, hpure⟩ := bind_eq_ok.mp h
    cases hpure
    rcases Account.createIntentFromEvaluation_ok hcreate with ⟨n, hn, hdb⟩ | ⟨_, hvacant, type, price, stop, hdb⟩
    · rw [hdb]
      exact ht.1.same rfl rfl hn
    · obtain ⟨hnone, hopen⟩ := ht.2 hvacant
      rw [hdb]
      rw [← hsymbol] at hnone hopen
      exact ht.1.insert (i := scheduledIntent t.db.nextId evaluation row.result type price stop row.createdAt)
        hnone hopen rfl rfl rfl (Nat.lt_succ_self _)
  · cases h
    exact ht.1

theorem evaluateSymbolForDailyClose_oneLiveEntry {config : PaperTradingConfig} {time authorizationAt : Time}
    {ctx : EvaluationContext} {ready : Bool} (hs : Gated ctx.entryGates symbol s.db) :
    OneLiveEntry (evaluateSymbolForDailyClose config symbol time ctx authorizationAt ready s).2.db := by
  unfold evaluateSymbolForDailyClose
  split_ifs
  · exact hs.1
  · cases ctx.bundle.daily.candles.getLast? with
    | none => exact hs.1
    | some lastDaily =>
      dsimp only
      split_ifs
      · exact hs.1
      · cases Strategy.Engine.evaluate ctx.bundle.daily ctx.bundle.weekly ctx.bundle.monthly time ctx.strategyParams with
        | error exc => exact hs.1
        | ok result =>
          have hnext : Gated ctx.entryGates symbol { s.db with nextId := s.db.nextId + 1 } :=
            hs.same rfl rfl (Nat.le_succ _)
          rw [ofExcept_ok_bind]
          refine scope_keeps (s := ⟨{ s.db with nextId := s.db.nextId + 1 }, s.faults⟩) hnext.1 fun r s' h => ?_
          exact oneLiveEntry_recordEvaluation hnext h

theorem dailySignalEvaluation_oneLiveEntry {sched : PaperTradingScheduler} {evaluation : EvaluationContext}
    {stop : Option StopContext} {t : Time} (hs : Gated evaluation.entryGates symbol s.db) :
    OneLiveEntry (sched.jobDailySignalEvaluation
      { evaluation := BySymbol.single symbol evaluation, stop := stop } t s).2.db := by
  have hevaluate : ∀ u : Session Db, Gated evaluation.entryGates symbol u.db →
      OneLiveEntry (sched.evaluateForDailyClose { evaluation := BySymbol.single symbol evaluation, stop := stop }
        t symbol u).2.db := by
    intro u hu
    simp only [evaluateForDailyClose, BySymbol.single, if_true]
    exact bind_keeps (evaluateSymbolForDailyClose_oneLiveEntry hu) fun _ => keeps_recordWork stopRules _ _ _
  have hother : ∀ other ≠ symbol, ∀ u : Session Db, sched.evaluateForDailyClose
      { evaluation := BySymbol.single symbol evaluation, stop := stop } t other u = (.ok (), u) := by
    intro other hne u
    simp only [evaluateForDailyClose, BySymbol.single, if_neg hne]
    rfl
  have hidle : ∀ symbols : List Symbol, symbol ∉ symbols → Keeps OneLiveEntry (forEach symbols
      (sched.evaluateForDailyClose { evaluation := BySymbol.single symbol evaluation, stop := stop } t)) := by
    refine fun symbols hnot => keeps_forEach fun other hmem u hu => ?_
    rw [hother other (fun heq => hnot (heq ▸ hmem)) u]
    exact hu
  have hall : ∀ symbols : List Symbol, symbols.Nodup → ∀ u : Session Db, Gated evaluation.entryGates symbol u.db →
      OneLiveEntry (forEach symbols (sched.evaluateForDailyClose
        { evaluation := BySymbol.single symbol evaluation, stop := stop } t) u).2.db := by
    intro symbols hnodup
    induction symbols with
    | nil => exact fun u hu => hu.1
    | cons other symbols ih =>
      intro u hu
      obtain ⟨hnot, hnodup⟩ := List.nodup_cons.mp hnodup
      rw [forEach]
      by_cases hsame : other = symbol
      · subst hsame
        exact bind_keeps (hevaluate u hu) fun _ => keeps_bind (hidle symbols hnot) fun _ => keeps_pure _
      · rw [bind_of_ok (hother other hsame u)]
        exact bind_keeps (ih hnodup u hu) fun _ => keeps_pure _
  exact bind_keeps (hall symbolProcessingOrder (by decide) s hs) fun _ => keeps_pure _

end Evaluation

section Runs

variable {b : MarketEventBridge} {e : MarketEvent} {s s' : Session Db}

theorem runRules {own : JobName → Time → Prop} : RunRules own OneLiveEntry :=
  .of_same fun _ _ _ h hids => h.same rfl rfl hids

theorem gatedRunRules {own : JobName → Time → Prop} {gates : EntryGateContext} {symbol : Symbol} :
    RunRules own (Gated gates symbol) :=
  .of_same fun _ _ _ h hids => h.same rfl rfl hids

theorem keeps_handler {sched : PaperTradingScheduler} {ctx : JobContexts} {t : Time} {job : SchedulerJobName}
    (hjob : job = .nextOpenFillProcessing ∨ job ∈ stopJobs) : Keeps OneLiveEntry (sched.handler ctx t job) := by
  rcases hjob with rfl | hjob
  · exact keeps_bind (keeps_processScheduledIntentsForOpen _ _ _ _ _) fun _ => keeps_recordWork stopRules _ _ _
  · exact keeps_stopJob stopRules hjob

theorem rules (htype : e.eventType ≠ .dailyClosed) : Rules b e (fun _ => True) OneLiveEntry where
  toRunRules := runRules
  pending := fun _ _ => trivial
  found := fun _ _ _ _ _ _ => trivial
  resolve := fun db c h _ => h.same rfl rfl le_rfl
  handler := fun ctx t job hjob => by
    rcases JobOf.kinds hjob with ⟨hclosed, _⟩ | hjob
    · exact absurd hclosed htype
    · exact keeps_handler hjob

theorem buildEvaluationContext_ok {builder : ContextBuilder} {symbol : Symbol} {t : Time}
    {evaluation : EvaluationContext} (hs : OneLiveEntry s.db)
    (h : builder.buildEvaluationContext symbol t s = (.ok evaluation, s')) :
    Gated evaluation.entryGates symbol s'.db := by
  obtain ⟨_, u, hconstraints, h⟩ := bind_eq_ok.mp h
  obtain ⟨_, rfl⟩ := ofExcept_eq_ok.mp hconstraints
  obtain ⟨bundle, u, hbundle, h⟩ := bind_eq_ok.mp h
  obtain ⟨_, rfl⟩ := ofExcept_eq_ok.mp hbundle
  split_ifs at h
  · cases h
  · obtain ⟨⟨entryReady, paused, kill⟩, u, hruntime, h⟩ := bind_eq_ok.mp h
    dsimp only at h
    rw [runtimeGates_ok hruntime] at h
    obtain ⟨gates, v, hgates, hpure⟩ := bind_eq_ok.mp h
    cases hpure
    obtain ⟨rfl, haccurate⟩ := buildEntryGateContext_ok hgates
    exact ⟨hs, haccurate⟩

theorem buildStopContextForClose_ok {builder : ContextBuilder} {symbol : Symbol} {t : Time} {stop : StopContext}
    (h : builder.buildStopContextForClose symbol t s = (.ok stop, s')) : s' = s := by
  obtain ⟨_, u, hconstraints, h⟩ := bind_eq_ok.mp h
  obtain ⟨_, rfl⟩ := ofExcept_eq_ok.mp hconstraints
  obtain ⟨bundle, u, hbundle, h⟩ := bind_eq_ok.mp h
  obtain ⟨_, rfl⟩ := ofExcept_eq_ok.mp hbundle
  cases hlast : bundle.daily.candles.getLast? with
  | none =>
    simp only [hlast] at h
    cases h
  | some lastDaily =>
    simp only [hlast] at h
    split_ifs at h
    · cases h
    · unfold getOpenPositionForSymbol at h
      obtain ⟨position, u, hposition, h⟩ := bind_eq_ok.mp h
      rw [read_bind] at hposition
      obtain ⟨_, rfl⟩ := scalarOneOrNone_eq_ok.mp hposition
      cases h
      rfl

theorem keeps_handleDailyClosed : Keeps OneLiveEntry (b.handleDailyClosed e) := by
  refine keeps_bind (keeps_candleFor _) fun candle => ?_
  dsimp only
  split_ifs
  · exact keeps_raise _
  · refine keeps_bind_ok (keeps_buildEvaluationContext _) fun s evaluation s₁ hs hevaluation _ => ?_
    have hgated := buildEvaluationContext_ok hs hevaluation
    rcases hstop : b.builder.buildStopContextForClose e.symbol
        (candle.closeTime + b.scheduler.config.evaluationDelaySeconds * second) s₁ with ⟨exc | stop, s₂⟩
    · rw [bind_of_error hstop]
      exact (keeps_buildStopContextForClose _).of_error hgated.1 hstop
    · obtain rfl := buildStopContextForClose_ok hstop
      rw [bind_of_ok hstop]
      refine bind_keeps ?_ fun _ => keeps_ofExcept _
      have hjob : ∀ job ∈ [SchedulerJobName.dailyStopUpdate, .portfolioSnapshot], Keeps OneLiveEntry
          (b.scheduler.runJob { evaluation := BySymbol.single e.symbol evaluation, stop := some stop }
            candle.closeTime job) := by
        intro job hjob u hu
        refine runJob_keeps (e := e) runRules runRules (fun _ h => h) (keeps_handler (.inr ?_)) hu
        simp only [List.mem_cons, List.not_mem_nil, or_false] at hjob
        rcases hjob with rfl | rfl <;> simp [stopJobs]
      unfold runDailyCloseSequence
      split_ifs
      · exact hgated.1
      · exact hgated.1
      · refine bind_keeps ?_ fun _ => keeps_bind (keeps_forEach hjob) fun _ => keeps_pure _
        exact runJob_keeps (e := e) gatedRunRules runRules (fun _ h => h.1)
          (fun u hu => dailySignalEvaluation_oneLiveEntry hu) hgated

theorem keeps_processEvent : Keeps OneLiveEntry (b.processEvent e) := by
  by_cases htype : e.eventType = .dailyClosed
  · unfold processEvent
    rw [if_neg (by simp [htype]), if_neg (by simp [htype])]
    refine keeps_bind (keeps_maybeShortCircuitPermanentFailure _ _) fun shortCircuit => ?_
    cases shortCircuit with
    | some _ => exact keeps_pure _
    | none =>
      refine keeps_bind (keeps_isCompleted _ _) fun complete => ?_
      split_ifs
      · exact keeps_pure _
      · simp only [htype]
        have hrules : EventRules.RunRules (EventRules.Own b e fun _ => True) OneLiveEntry := runRules
        exact keeps_processLiveOrClosed hrules keeps_handleDailyClosed
  · exact EventRules.keeps_processEvent (rules htype)

theorem keeps_takeTurn (turn : Turn) : Keeps OneLiveEntry (takeTurn turn) :=
  keeps_bind keeps_processEvent fun _ => keeps_pure _

theorem step_oneLiveEntry {db : Db} (h : OneLiveEntry db) (step : Step) : OneLiveEntry (step.run db) := by
  cases step with
  | poll p =>
    have hprocess : Keeps OneLiveEntry p.process := by
      refine Keeps.scope (keeps_bind (keeps_forEach fun turn _ => keeps_takeTurn turn) fun outcomes => ?_)
      split_ifs
      · exact keeps_pure _
      · exact keeps_raise _
    have hrun := hprocess ⟨db, p.faults⟩ h
    simp only [Step.run, Poll.run]
    rcases hresult : p.process ⟨db, p.faults⟩ with ⟨exc | acked, s'⟩ <;> rw [hresult] at hrun
    · exact hrun
    · exact hrun
  | recover call =>
    refine (keeps_recoverPermanentConfiguration (fun db n runs hids h => ?_) _ _).scope ⟨db, call.faults⟩ h
    exact h.same rfl rfl hids
  | runtime state => exact h.same rfl rfl le_rfl

theorem reached_oneLiveEntry {db : Db} (h : OneLiveEntry db) (steps : List Step) (turns : List Turn)
    (faults : List Bool) : OneLiveEntry (reached db steps turns faults) := by
  have hsteps : OneLiveEntry (steps.foldl Step.run db) := by
    induction steps generalizing db with
    | nil => exact h
    | cons step steps ih => exact ih (step_oneLiveEntry h step)
  exact keeps_forEach (fun turn _ => keeps_takeTurn turn) ⟨steps.foldl Step.run db, faults⟩ hsteps

/-- From tables without intents, every state that the bridge reaches has at most one live entry for each
symbol, and the lookup of a symbol's intent finds one row at most. -/
theorem one_live_entry (base : Db) (steps : List Step) (turns : List Turn) (faults : List Bool)
    (symbol : Symbol) :
    (liveIntents (reached (withoutIntents base) steps turns faults) symbol).length ≤ 1 ∧
      (liveIntents (reached (withoutIntents base) steps turns faults) symbol = [] ∨
        openOf (reached (withoutIntents base) steps turns faults) symbol = []) ∧
      ∀ faults', getNonterminalIntentForSymbol symbol ⟨reached (withoutIntents base) steps turns faults, faults'⟩ =
        (.ok (liveIntents (reached (withoutIntents base) steps turns faults) symbol).head?,
          ⟨reached (withoutIntents base) steps turns faults, faults'⟩) := by
  have hstart : OneLiveEntry (withoutIntents base) := oneLiveEntry_of_noIntents rfl
  have hreached := reached_oneLiveEntry hstart steps turns faults
  refine ⟨hreached.single symbol, ?_, fun faults' => getNonterminalIntentForSymbol_run hreached symbol faults'⟩
  by_cases hnone : liveIntents (reached (withoutIntents base) steps turns faults) symbol = []
  · exact .inl hnone
  · exact .inr (hreached.apart symbol hnone)

end Runs

end TradingBot.Paper.LiveEntries
