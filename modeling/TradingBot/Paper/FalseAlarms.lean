import TradingBot.Paper.FillInvariants
import TradingBot.Paper.Recovery

namespace TradingBot.Paper.FalseAlarms

open Market.Models Strategy.Models Exceptions Backtester.Lifecycle Library Library.Transaction
open Paper.Models Paper.Repository Paper.Stops Paper.PositionTable Paper.Execution Paper.Lifecycle
open Paper.Effects Paper.TradeBook Paper.Account Paper.FillInvariants Paper.Recovery

section Rows

def serviceStatuses : List TradeIntentStatus :=
  [.scheduled, .submittedToPaperEngine, .filled, .rejected, .cancelled]

structure Clean (db : Db) : Prop where
  intents : ∀ i ∈ db.intents, i.status ∈ serviceStatuses
  orders : ∀ o ∈ db.orders, o.status = .filled
  stops : ∀ p ∈ db.positions, p.initialStop ≤ p.currentStop ∧ p.averageEntryPrice ≤ p.highestCloseSinceEntry
  history : ∀ e ∈ db.stopHistory, e.previousStop ≤ e.newStop

variable {db db' : Db}

theorem Clean.frame (h : Clean db) (horders : db'.orders = db.orders)
    (hpositions : db'.positions = db.positions) (hintents : db'.intents = db.intents)
    (hhistory : db'.stopHistory = db.stopHistory) : Clean db' where
  intents := hintents ▸ h.intents
  orders := horders ▸ h.orders
  stops := hpositions ▸ h.stops
  history := hhistory ▸ h.history

theorem Clean.modifyIntent (h : Clean db) {intentId : Id} {u : IntentUpdate}
    (hu : u.status ∈ serviceStatuses) : Clean (modifyIntent intentId u db) where
  intents := by
    intro i hi
    obtain ⟨j, hj, rfl⟩ := mem_modifyIntent.mp hi
    by_cases hid : j.intentId = intentId
    · rw [if_pos hid]
      exact hu
    · rw [if_neg hid]
      exact h.intents j hj
  orders := h.orders
  stops := h.stops
  history := h.history

theorem Clean.insertIntent (h : Clean db) {row : TradeIntent} {nextId : Id} (hrow : row.status = .scheduled) :
    Clean { db with intents := db.intents ++ [row], nextId } where
  intents := by
    intro i hi
    rcases List.mem_append.mp hi with hi | hi
    · exact h.intents i hi
    · rw [List.mem_singleton.mp hi, hrow]
      decide
  orders := h.orders
  stops := h.stops
  history := h.history

theorem Clean.fill {intent : TradeIntent} {ctx : FillProcessingContext} (h : Clean db)
    (heffect : FillEffect intent ctx db db') : Clean db' := by
  cases heffect with
  | rejected reason => exact h.modifyIntent (by simp [serviceStatuses])
  | entered entry hfree hqty hmargin hstops =>
    have hmodified : Clean (Effects.modifyIntent intent.intentId
        { status := .filled, approvedQuantity := some entry.quantity } db) :=
      h.modifyIntent (by simp [serviceStatuses])
    refine ⟨hmodified.intents, fun o ho => ?_, fun p hp => ?_, h.history⟩
    · rcases List.mem_append.mp ho with ho | ho
      · exact h.orders o ho
      · rw [List.mem_singleton.mp ho]
        rfl
    · rcases List.mem_append.mp hp with hp | hp
      · exact h.stops p hp
      · rw [List.mem_singleton.mp hp]
        exact ⟨hstops.stop, hstops.highest.ge⟩

theorem mem_modifyPosition {positionId : Id} {f : PaperPosition → PaperPosition} {p : PaperPosition} :
    p ∈ (modifyPosition positionId f db).positions ↔
      ∃ q ∈ db.positions, (if q.positionId = positionId then f q else q) = p := by
  simp [modifyPosition]

theorem Clean.exit {position : PaperPosition} {trigger : StopTriggerResult} {exit : ExitAccounting}
    {time : Time} (h : Clean db) : Clean (exited position trigger exit time db) where
  intents := h.intents
  orders := h.orders
  stops := by
    intro p hp
    obtain ⟨q, hq, rfl⟩ := mem_modifyPosition.mp hp
    by_cases hid : q.positionId = position.positionId
    · rw [if_pos hid]
      exact h.stops q hq
    · rw [if_neg hid]
      exact h.stops q hq
  history := h.history

theorem Clean.raise {position : PaperPosition} {updated : TrailingStopState} {atr : Decimal} {time : Time}
    (h : Clean db) (hkeys : PositionKeys db) (hp : position ∈ db.positions)
    (hraised : position.currentStop < updated.effectiveStop)
    (hhighest : position.highestCloseSinceEntry ≤ updated.highestClose) :
    Clean (raised position updated atr time db) where
  intents := h.intents
  orders := h.orders
  stops := by
    intro p hmem
    obtain ⟨q, hq, rfl⟩ := mem_modifyPosition.mp hmem
    by_cases hid : q.positionId = position.positionId
    · obtain rfl := eq_of_positionId_eq hkeys hq hp hid
      obtain ⟨hstop, hentry⟩ := h.stops q hq
      rw [if_pos hid]
      exact ⟨hstop.trans hraised.le, hentry.trans hhighest⟩
    · rw [if_neg hid]
      exact h.stops q hq
  history := by
    intro e he
    rcases List.mem_append.mp he with he | he
    · exact h.history e he
    · rw [List.mem_singleton.mp he]
      exact hraised.le

/-- A book of trades whose rows are as the services leave them. -/
def Audited (w₀ : PaperWalletState) (db : Db) : Prop := Ledger w₀ db ∧ Clean db

instance (w₀ : PaperWalletState) : Accounted (Audited w₀) where
  ledger := fun h => ⟨w₀, h.1⟩
  frame := fun horders hpositions hfills hwallet hintents hfunding hhistory hid h =>
    ⟨h.1.frame horders hpositions hfills hwallet hintents hfunding hid,
      h.2.frame horders hpositions hintents hhistory⟩
  schedule := fun hid hstatus h => ⟨Accounted.schedule hid hstatus h.1, h.2.insertIntent hstatus⟩
  mark := by
    intro db intentId u hu hnone h
    refine ⟨Accounted.mark hu hnone h.1, h.2.modifyIntent ?_⟩
    rcases hu with hu | hu <;> rw [hu] <;> decide
  fill := fun hsource hnone heffect h => ⟨Accounted.fill hsource hnone heffect h.1, h.2.fill heffect⟩
  exit := fun trigger bps feeRate time hp h => ⟨Accounted.exit trigger bps feeRate time hp h.1, h.2.exit⟩
  raise := fun atr time hp hraised hhighest h =>
    ⟨Accounted.raise atr time hp hraised hhighest h.1,
      h.2.raise h.1.keys (mem_openOf.mp hp).1 hraised hhighest⟩

theorem emptyAccount_audited {w₀ : PaperWalletState} {base : Db} (h : base.stopHistory = []) :
    Audited w₀ (emptyAccount w₀ base) := by
  refine ⟨emptyAccount_ledger _, ?_⟩
  constructor <;> simp [emptyAccount, h]

end Rows

section Lookups

variable {w₀ : PaperWalletState} {db : Db} {trades : List Trade} {t : Trade}

theorem oneOrNone_of_length_le_one {α : Type} {l : List α} (h : l.length ≤ 1) : oneOrNone l = .ok l.head? := by
  match l with
  | [] => rfl
  | [a] => rfl
  | _ :: _ :: _ => simp at h

theorem orderForIntent_eq (h : Represents w₀ db trades) (intentId : Id) :
    orderForIntent db intentId = .ok ((trades.find? (·.order.intentId = intentId)).map (·.order)) := by
  have hrows : db.orders.filter (·.intentId = intentId) =
      (trades.filter (·.order.intentId = intentId)).map (·.order) := by
    rw [h.orders, List.filter_map]
    rfl
  rw [orderForIntent, hrows, oneOrNone_of_length_le_one, List.head?_map, List.head?_filter]
  rw [List.length_map]
  exact Keyed.length_filter_key_le_one h.tradeIntents intentId

theorem fillsForOrder_eq (h : Represents w₀ db trades) (ht : t ∈ trades) :
    fillsForOrder db t.order.paperOrderId = [t.entry] := by
  have hselect : ∀ u ∈ trades, u.fills.filter (·.paperOrderId = some t.order.paperOrderId) =
      if u.order.paperOrderId = t.order.paperOrderId then [u.entry] else [] := by
    intro u _
    have hexit : u.exit.toList.filter (·.paperOrderId = some t.order.paperOrderId) = [] := by
      simp only [List.filter_eq_nil_iff, Option.mem_toList, decide_eq_true_eq]
      intro f hf
      rw [(u.ended f hf).2.2.order]
      simp
    rw [Trade.fills, List.filter_cons, hexit]
    simp [u.entry_order]
  have hperm := h.fills.filter (·.paperOrderId = some t.order.paperOrderId)
  have hpick := Keyed.flatMap_if_nil
    (fun u : Trade => decide (u.order.paperOrderId = t.order.paperOrderId)) (fun u => [u.entry]) trades
  simp only [decide_eq_true_eq] at hpick
  rw [List.filter_flatMap, List.flatMap_congr hselect, hpick,
    Keyed.filter_key_eq_singleton h.orderIds ht] at hperm
  exact List.perm_singleton.mp ((List.perm_insertionSort _ _).trans hperm)

theorem find?_order (h : Represents w₀ db trades) (ht : t ∈ trades) :
    db.orders.find? (·.paperOrderId = t.order.paperOrderId) = some t.order := by
  have hnodup : (db.orders.map (·.paperOrderId)).Nodup := by
    rw [h.orders, List.map_map]
    exact h.orderIds
  refine Keyed.find?_key hnodup ?_
  rw [h.orders]
  exact List.mem_map_of_mem ht

end Lookups

section Silence

variable {w₀ : PaperWalletState} {db : Db} {trades : List Trade} {t : Trade}

theorem checkEach_eq_nil {α : Type} {check : α → Except Exc (List ConsistencyIssue)} {as : List α}
    (h : ∀ a ∈ as, check a = .ok []) : checkEach check as = .ok [] := by
  induction as with
  | nil => rfl
  | cons a as ih =>
    rw [checkEach, h a List.mem_cons_self, ih fun b hb => h b (List.mem_cons_of_mem _ hb)]
    rfl

theorem checkIntent_silent (h : Represents w₀ db trades) (hclean : Clean db) {i : TradeIntent}
    (hi : i ∈ db.intents) : checkIntent db i = .ok [] := by
  have hstatus := hclean.intents i hi
  unfold checkIntent
  rw [orderForIntent_eq h]
  cases hfind : trades.find? (·.order.intentId = i.intentId) with
  | none =>
    have hopen : i.status ≠ .filled := by
      intro hfilled
      obtain ⟨t, ht, hid⟩ := (h.filled i hi).mp hfilled
      exact absurd hid (by simpa using List.find?_eq_none.mp hfind t ht)
    simp only [serviceStatuses, List.mem_cons, List.not_mem_nil, or_false] at hstatus
    rcases hstatus with hs | hs | hs | hs | hs <;>
      simp_all [intentFillIssues, openOrderIssues, missingOrderIssues, issueWhen, terminalIntentStatuses, bind,
        Except.bind, pure, Except.pure]
  | some t =>
    have ht := List.mem_of_find?_eq_some hfind
    have hid : t.order.intentId = i.intentId := by simpa using List.find?_some hfind
    have hfilled : i.status = .filled := (h.filled i hi).mpr ⟨t, ht, hid⟩
    have horder : t.order.status = .filled := by
      refine hclean.orders t.order ?_
      rw [h.orders]
      exact List.mem_map_of_mem ht
    have hfills := fillsForOrder_eq h ht
    simp [intentFillIssues, openOrderIssues, missingOrderIssues, issueWhen, terminalIntentStatuses, hfilled,
      horder, hfills, bind, Except.bind, pure, Except.pure]

theorem checkPosition_silent (h : Represents w₀ db trades) (ht : t ∈ trades) :
    checkPosition db t.position = .ok [] := by
  obtain ⟨i, hi, hid, _⟩ := h.sources t ht
  have hintent : db.intents.find? (·.intentId = t.order.intentId) = some i := by
    rw [← hid]
    exact Keyed.find?_key h.intentIds hi
  have horder : trades.find? (·.order.intentId = t.order.intentId) = some t :=
    Keyed.find?_key h.tradeIntents ht
  have hstatus : t.position.status ≠ .closing := by
    cases hexit : t.exit with
    | none => simp [(t.running hexit).1]
    | some f => simp [(t.ended f hexit).1]
  unfold checkPosition
  rw [t.intent_eq, hintent, orderForIntent_eq h, horder]
  simp [issueWhen, fillsForOrder_eq h ht, hstatus, bind, Except.bind, pure, Except.pure]

theorem checkFill_silent (h : Represents w₀ db trades) {f : PaperFill} (hf : f ∈ db.fills) :
    checkFill db f = .ok [] := by
  obtain ⟨t, ht, rfl | hexit⟩ := h.mem_fills.mp hf
  · have hpositions : db.positions.filter (·.entryIntentId = t.order.intentId) = [t.position] := by
      have hselect := Keyed.filter_key_eq_singleton h.tradeIntents ht
      rw [h.positions, List.filter_map]
      simp only [Function.comp_def, Trade.intent_eq, hselect, List.map_cons, List.map_nil]
    unfold checkFill
    simp only [t.entry_kind, t.entry_order, find?_order h ht, hpositions]
    rfl
  · have hof := (t.ended f hexit).2.2
    unfold checkFill
    simp [hof.kind, hof.position, issueWhen]

theorem checkMultipleOpenPositions_silent (hkeys : PositionKeys db) : checkMultipleOpenPositions db = [] := by
  simp only [checkMultipleOpenPositions, List.map_eq_nil_iff, List.filter_eq_nil_iff, decide_eq_true_eq, not_lt]
  intro symbol _
  have hcount : ((db.positions.filter isOpen).map (·.symbol)).count symbol = (openOf db symbol).length := by
    rw [List.count, List.countP_map, List.countP_eq_length_filter, List.filter_filter, openOf]
    rfl
  rw [hcount]
  exact hkeys.openUnique symbol

theorem checkStopInvariants_silent (hclean : Clean db) : checkStopInvariants db = [] := by
  simp only [checkStopInvariants, List.flatMap_eq_nil_iff]
  intro p hp
  obtain ⟨hstop, hhighest⟩ := hclean.stops p hp
  have hfallen : (db.stopHistory.filter fun e => e.positionId = p.positionId ∧ e.newStop < e.previousStop) = [] := by
    simp only [List.filter_eq_nil_iff, decide_eq_true_eq, not_and, not_lt]
    exact fun e he _ => hclean.history e he
  have hhistory : stopHistoryIssues db p = [] := by
    rw [stopHistoryIssues, hfallen]
    rfl
  simp [issueWhen, hstop.not_gt, hhighest.not_gt, hhistory]

theorem checkDuplicateFills_silent {fills : List PaperFill} {seen : List FillKey}
    (hnodup : (fills.map (·.deterministicFillKey)).Nodup)
    (hfresh : ∀ f ∈ fills, f.deterministicFillKey ∉ seen) : checkDuplicateFills seen fills = [] := by
  induction fills generalizing seen with
  | nil => rfl
  | cons f fills ih =>
    rw [List.map_cons, List.nodup_cons] at hnodup
    have hrest : ∀ g ∈ fills, g.deterministicFillKey ∉ f.deterministicFillKey :: seen := by
      intro g hg hmem
      rcases List.mem_cons.mp hmem with heq | hseen
      · exact hnodup.1 (List.mem_map.mpr ⟨g, hg, heq⟩)
      · exact hfresh g (List.mem_cons_of_mem _ hg) hseen
    rw [checkDuplicateFills, ih hnodup.2 hrest]
    simp [issueWhen, hfresh f List.mem_cons_self]

theorem mem_fill_keys {t : Trade} {key : FillKey} (h : key ∈ t.fills.map (·.deterministicFillKey)) :
    (∃ seconds, key = .entry t.order.paperOrderId seconds 0) ∨
      ∃ seconds, key = .exit t.position.positionId seconds := by
  obtain ⟨f, hf, rfl⟩ := List.mem_map.mp h
  rcases List.mem_cons.mp hf with rfl | hexit
  · exact .inl ⟨_, t.entry_key⟩
  · exact .inr (t.ended f (Option.mem_toList.mp hexit)).2.2.key

theorem fill_keys_nodup (h : Represents w₀ db trades) : (db.fills.map (·.deterministicFillKey)).Nodup := by
  have hids : (trades.map (·.position.positionId)).Nodup := by
    have hkeys := h.keys.ids
    rwa [h.positions, List.map_map] at hkeys
  rw [(h.fills.map _).nodup_iff, List.map_flatMap, List.nodup_flatMap]
  refine ⟨fun t _ => ?_, ?_⟩
  · cases hexit : t.exit with
    | none => simp [Trade.fills, hexit]
    | some f =>
      obtain ⟨seconds, hkey⟩ := (t.ended f hexit).2.2.key
      simp [Trade.fills, hexit, t.entry_key, hkey]
  · refine ((List.pairwise_map.mp h.orderIds).and (List.pairwise_map.mp hids)).imp ?_
    rintro t u ⟨horder, hposition⟩ key ht hu
    rcases mem_fill_keys ht with ⟨_, rfl⟩ | ⟨_, rfl⟩ <;> rcases mem_fill_keys hu with ⟨_, heq⟩ | ⟨_, heq⟩
    · exact horder (FillKey.entry.inj heq).1
    · cases heq
    · cases heq
    · exact hposition (FillKey.exit.inj heq).1

theorem accountIssues_silent (h : Audited w₀ db) : accountIssues db = .ok [] := by
  obtain ⟨⟨trades, hbook⟩, hclean⟩ := h
  have hintents : checkEach (checkIntent db) db.intents = .ok [] :=
    checkEach_eq_nil fun i hi => checkIntent_silent hbook hclean hi
  have hpositions : checkEach (checkPosition db) db.positions = .ok [] := by
    refine checkEach_eq_nil fun p hp => ?_
    rw [hbook.positions] at hp
    obtain ⟨t, ht, rfl⟩ := List.mem_map.mp hp
    exact checkPosition_silent hbook ht
  have hfills : checkEach (checkFill db) db.fills = .ok [] :=
    checkEach_eq_nil fun f hf => checkFill_silent hbook hf
  have hduplicates : checkDuplicateFills [] db.fills = [] :=
    checkDuplicateFills_silent (fill_keys_nodup hbook) fun f _ => List.not_mem_nil
  unfold accountIssues checkPositionReferences
  rw [hintents, hpositions, hfills, checkMultipleOpenPositions_silent hbook.keys,
    checkStopInvariants_silent hclean, hduplicates]
  rfl

end Silence

section Repairs

variable {config : PaperTradingConfig} {w₀ : PaperWalletState} {now repairedAt later : Time} {db : Db}
  {s s' : Session Db}

/-- The rows after the runs that a crash left RUNNING are failed. -/
def failedRuns (completedAt : Time) (db : Db) : Db := (failOrphanSchedulerRuns completedAt ⟨db, []⟩).2.db

def refreshed (now : Time) (db : Db) : Db :=
  { db with runtimeState := db.runtimeState.map { heartbeatAt := some now : RuntimeUpdate }.apply }

theorem refreshed_of_none (h : db.runtimeState = none) : refreshed now db = db := by
  cases db
  cases h
  rfl

/-- What the repair of an issue does to the rows, for the two kinds that a crash can leave. -/
def repaired (now : Time) (issue : ConsistencyIssue) (db : Db) : Db :=
  if issue.code = .orphanSchedulerRun then failedRuns now db else refreshed now db

def CrashIssue (issue : ConsistencyIssue) : Prop :=
  issue.severity = .autoRepairable ∧ (issue.code = .orphanSchedulerRun ∨ issue.code = .staleRuntimeHeartbeat)

theorem repairOrphanRuns_ok {repairs : List Repair} (h : repairOrphanRuns now s = (.ok repairs, s')) :
    s'.db = failedRuns now s.db := by
  obtain ⟨count, t, hfail, hpure⟩ := bind_eq_ok.mp h
  cases hpure
  unfold failOrphanSchedulerRuns at hfail
  rw [read_bind] at hfail
  obtain ⟨_, u, hwrite, hcount⟩ := bind_eq_ok.mp hfail
  cases hcount
  exact write_ok_db hwrite

theorem updateRuntimeState_same {u : RuntimeUpdate} {row : RuntimeState} (h : s.db.runtimeState = some row) :
    updateRuntimeState u (some row.version) s =
      (execute (fun db => { db with runtimeState := some (u.apply row) }) >>= fun _ => pure (u.apply row)) s := by
  unfold updateRuntimeState getRuntimeState
  rw [read_bind]
  simp only [h, Option.any_some, bne_self_eq_false, Bool.false_eq_true, ↓reduceIte]

theorem repairHeartbeat_ok {repairs : List Repair} (h : repairHeartbeat now s = (.ok repairs, s')) :
    s'.db = refreshed now s.db := by
  unfold repairHeartbeat getRuntimeState at h
  rw [read_bind] at h
  cases hruntime : s.db.runtimeState with
  | none =>
    simp only [hruntime] at h
    cases h
    exact (refreshed_of_none hruntime).symm
  | some runtime =>
    simp only [hruntime] at h
    obtain ⟨_, t, hupdate, hpure⟩ := bind_eq_ok.mp h
    cases hpure
    rw [updateRuntimeState_same hruntime] at hupdate
    obtain ⟨_, u, hwrite, hpure⟩ := bind_eq_ok.mp hupdate
    cases hpure
    rw [write_ok_db hwrite, refreshed, hruntime, Option.map_some]

theorem repairHeartbeat_run (db : Db) :
    ∃ repairs, repairHeartbeat now ⟨db, []⟩ = (.ok repairs, ⟨refreshed now db, []⟩) := by
  unfold repairHeartbeat getRuntimeState
  rw [read_bind]
  cases hruntime : db.runtimeState with
  | none =>
    rw [refreshed_of_none hruntime]
    exact ⟨[], rfl⟩
  | some runtime =>
    have hupdate : updateRuntimeState { heartbeatAt := some now } (some runtime.version) ⟨db, []⟩ =
        (.ok (RuntimeUpdate.apply { heartbeatAt := some now } runtime), ⟨refreshed now db, []⟩) := by
      rw [updateRuntimeState_same hruntime, refreshed, hruntime]
      rfl
    exact ⟨_, bind_of_ok hupdate⟩

theorem repair_ok {issue : ConsistencyIssue} {repairs : List Repair} (hissue : CrashIssue issue)
    (h : repair now issue s = (.ok repairs, s')) : s'.db = repaired now issue s.db := by
  obtain ⟨hseverity, hcode⟩ := hissue
  unfold repair at h
  rcases hcode with hcode | hcode <;> simp only [hseverity, hcode, ne_eq, not_true_eq_false, if_false] at h
  · rw [repaired, if_pos hcode]
    exact repairOrphanRuns_ok h
  · rw [repaired, if_neg (by simp [hcode])]
    exact repairHeartbeat_ok h

theorem repair_run {issue : ConsistencyIssue} (hissue : CrashIssue issue) (db : Db) :
    ∃ repairs, repair now issue ⟨db, []⟩ = (.ok repairs, ⟨repaired now issue db, []⟩) := by
  obtain ⟨hseverity, hcode⟩ := hissue
  unfold repair
  rcases hcode with hcode | hcode <;> simp only [hseverity, hcode, ne_eq, not_true_eq_false, if_false]
  · rw [repaired, if_pos hcode]
    exact ⟨_, rfl⟩
  · rw [repaired, if_neg (by simp [hcode])]
    exact repairHeartbeat_run db

theorem failedRuns_of_settled (h : ∀ r ∈ db.schedulerRuns, r.status ≠ .running) : failedRuns now db = db := by
  have hrows : (failedRuns now db).schedulerRuns = db.schedulerRuns :=
    (List.map_congr_left fun r hr => if_neg (h r hr)).trans (List.map_id _)
  have hrest : failedRuns now db = { db with schedulerRuns := (failedRuns now db).schedulerRuns } := rfl
  rw [hrest, hrows]

theorem failedRuns_settled : ∀ r ∈ (failedRuns now db).schedulerRuns, r.status ≠ .running := by
  intro r hr
  obtain ⟨q, _, rfl⟩ := List.mem_map.mp hr
  by_cases hq : q.status = .running <;> simp [hq]

theorem orphan_repairs (db : Db) :
    (checkOrphanSchedulerRuns db).foldl (fun db issue => repaired now issue db) db = failedRuns now db := by
  have hturn : ∀ (db : Db) (run : SchedulerRun), repaired now
      { code := .orphanSchedulerRun, severity := .autoRepairable
        message := "Scheduler run stuck in RUNNING", details := .run run.runId run.jobName } db =
      failedRuns now db := fun db run => if_pos rfl
  simp only [checkOrphanSchedulerRuns, List.foldl_map, hturn]
  cases hruns : db.schedulerRuns.filter (·.status = .running) with
  | nil =>
    refine (failedRuns_of_settled fun r hr => ?_).symm
    simpa using List.filter_eq_nil_iff.mp hruns r hr
  | cons run runs => exact List.foldl_fixed' (fun _ => failedRuns_of_settled failedRuns_settled) runs

theorem checkOrphanSchedulerRuns_settled (h : ∀ r ∈ db.schedulerRuns, r.status ≠ .running) :
    checkOrphanSchedulerRuns db = [] := by
  simpa [checkOrphanSchedulerRuns] using h

def Stale (config : PaperTradingConfig) (now : Time) (runtime : RuntimeState) : Prop :=
  config.staleRuntimeThresholdSeconds * second < now - runtime.heartbeatAt

theorem checkStaleHeartbeat_eq_nil : checkStaleHeartbeat config now db = [] ↔
    ∀ runtime ∈ db.runtimeState, ¬ Stale config now runtime := by
  cases hruntime : db.runtimeState <;> simp [checkStaleHeartbeat, hruntime, issueWhen, Stale]

def recovered (config : PaperTradingConfig) (now repairedAt : Time) (db : Db) : Db :=
  (checkOrphanSchedulerRuns db ++ checkStaleHeartbeat config now db).foldl
    (fun db issue => repaired repairedAt issue db) db

theorem recovered_eq (config : PaperTradingConfig) (now repairedAt : Time) (db : Db) :
    recovered config now repairedAt db =
      if checkStaleHeartbeat config now db = [] then failedRuns repairedAt db
      else refreshed repairedAt (failedRuns repairedAt db) := by
  rw [recovered, List.foldl_append, orphan_repairs]
  unfold checkStaleHeartbeat
  cases db.runtimeState with
  | none => rfl
  | some runtime =>
    simp only [issueWhen]
    split_ifs with hstale hnone hnone
    · exact hnone.elim
    · rfl
    · rfl
    · exact absurd rfl hnone

end Repairs

section Results

variable {config : PaperTradingConfig} {w₀ : PaperWalletState} {now repairedAt later : Time} {db : Db}

theorem consistencyIssues_eq (h : Audited w₀ db) (config : PaperTradingConfig) (now : Time) :
    consistencyIssues config now db =
      .ok (checkOrphanSchedulerRuns db ++ checkStaleHeartbeat config now db) := by
  rw [consistencyIssues, accountIssues_silent h]
  simp [bind, Except.bind, pure, Except.pure]

theorem crash_issues (config : PaperTradingConfig) (now : Time) (db : Db) :
    ∀ issue ∈ checkOrphanSchedulerRuns db ++ checkStaleHeartbeat config now db, CrashIssue issue := by
  intro issue hissue
  rcases List.mem_append.mp hissue with hissue | hissue
  · obtain ⟨run, _, rfl⟩ := List.mem_map.mp hissue
    exact ⟨rfl, .inl rfl⟩
  · unfold checkStaleHeartbeat at hissue
    cases hruntime : db.runtimeState with
    | none => simp [hruntime] at hissue
    | some runtime =>
      simp only [hruntime, issueWhen] at hissue
      split_ifs at hissue
      · rw [List.mem_singleton.mp hissue]
        exact ⟨rfl, .inr rfl⟩
      · cases hissue

theorem recovered_audited (h : Audited w₀ db) (config : PaperTradingConfig) (now repairedAt : Time) :
    Audited w₀ (recovered config now repairedAt db) := by
  have hfailed : Audited w₀ (failedRuns repairedAt db) := by
    have horders : (failedRuns repairedAt db).orders = db.orders := rfl
    exact Accounted.frame horders rfl rfl rfl rfl rfl rfl le_rfl h
  rw [recovered_eq]
  split_ifs
  · exact hfailed
  · have horders : (refreshed repairedAt (failedRuns repairedAt db)).orders =
        (failedRuns repairedAt db).orders := rfl
    exact Accounted.frame horders rfl rfl rfl rfl rfl rfl le_rfl hfailed

/-- No heartbeat turns stale between the repairs and the checks after them. -/
def Prompt (config : PaperTradingConfig) (now repairedAt later : Time) (db : Db) : Prop :=
  later - repairedAt ≤ config.staleRuntimeThresholdSeconds * second ∧
    ∀ runtime ∈ db.runtimeState, ¬ Stale config now runtime → ¬ Stale config later runtime

theorem prompt_same (config : PaperTradingConfig) (now : Time) (db : Db) : Prompt config now now now db := by
  refine ⟨?_, fun _ _ h => h⟩
  rw [sub_self]
  exact mul_nonneg (Int.natCast_nonneg _) (by decide)

theorem recovered_silent (h : Audited w₀ db) (hprompt : Prompt config now repairedAt later db) :
    consistencyIssues config later (recovered config now repairedAt db) = .ok [] := by
  have hruns : checkOrphanSchedulerRuns (recovered config now repairedAt db) = [] := by
    refine checkOrphanSchedulerRuns_settled ?_
    rw [recovered_eq]
    split_ifs <;> exact failedRuns_settled
  have hheartbeat : checkStaleHeartbeat config later (recovered config now repairedAt db) = [] := by
    rw [checkStaleHeartbeat_eq_nil, recovered_eq]
    split_ifs with hfresh
    · intro runtime hruntime
      exact hprompt.2 runtime hruntime (checkStaleHeartbeat_eq_nil.mp hfresh runtime hruntime)
    · intro runtime hruntime
      obtain ⟨row, _, rfl⟩ := Option.mem_map.mp hruntime
      exact not_lt.mpr hprompt.1
  rw [consistencyIssues_eq (recovered_audited h config now repairedAt), hruns, hheartbeat]
  rfl

theorem runConsistencyChecks_eq {issues : List ConsistencyIssue} {s : Session Db}
    (h : consistencyIssues config now s.db = .ok issues) : runConsistencyChecks config now s = (.ok issues, s) := by
  unfold runConsistencyChecks
  rw [read_bind, h]
  rfl

theorem applyAutoRepairs_ok {repairs : List Repair} {faults : List Bool} {s' : Session Db}
    (h : applyAutoRepairs repairedAt (checkOrphanSchedulerRuns db ++ checkStaleHeartbeat config now db)
      ⟨db, faults⟩ = (.ok repairs, s')) : s'.db = recovered config now repairedAt db := by
  obtain ⟨turns, t, hturns, hpure⟩ := bind_eq_ok.mp (scope_eq_ok.mp h)
  cases hpure
  refine forEach_ok_db (fun issue hissue s b s' hturn => ?_) hturns
  exact repair_ok (crash_issues _ _ _ issue hissue) hturn

theorem applyAutoRepairs_run (config : PaperTradingConfig) (now repairedAt : Time) (db : Db) :
    ∃ repairs, applyAutoRepairs repairedAt (checkOrphanSchedulerRuns db ++ checkStaleHeartbeat config now db)
      ⟨db, []⟩ = (.ok repairs, ⟨recovered config now repairedAt db, []⟩) := by
  have hturns : ∃ turns, forEach (checkOrphanSchedulerRuns db ++ checkStaleHeartbeat config now db)
      (repair repairedAt) ⟨db, []⟩ = (.ok turns, ⟨recovered config now repairedAt db, []⟩) :=
    forEach_run_nil (fun issue hissue db => repair_run (crash_issues _ _ _ issue hissue) db) db
  obtain ⟨turns, hturns⟩ := hturns
  exact ⟨turns.flatten, scope_of_ok (bind_of_ok hturns)⟩

/-- The checks of an account find nothing that is fatal or needs an operator, the repairs go through on a
database without faults, and after committed repairs the same checks find nothing. -/
structure NoFalseAlarm (config : PaperTradingConfig) (db : Db) : Prop where
  harmless : ∀ now faults, ∃ issues, runConsistencyChecks config now ⟨db, faults⟩ = (.ok issues, ⟨db, faults⟩) ∧
    ∀ issue ∈ issues, issue.severity = .autoRepairable
  repairable : ∀ now repairedAt issues s, runConsistencyChecks config now ⟨db, []⟩ = (.ok issues, s) →
    ∃ repairs s', applyAutoRepairs repairedAt issues s = (.ok repairs, s')
  silent : ∀ now faults issues s repairs s', runConsistencyChecks config now ⟨db, faults⟩ = (.ok issues, s) →
    applyAutoRepairs now issues s = (.ok repairs, s') → runConsistencyChecks config now s' = (.ok [], s')
  silentLater : ∀ now repairedAt later faults issues s repairs s', Prompt config now repairedAt later db →
    runConsistencyChecks config now ⟨db, faults⟩ = (.ok issues, s) →
    applyAutoRepairs repairedAt issues s = (.ok repairs, s') → runConsistencyChecks config later s' = (.ok [], s')

theorem noFalseAlarm_of_audited (h : Audited w₀ db) (config : PaperTradingConfig) : NoFalseAlarm config db := by
  have hchecks : ∀ now faults, runConsistencyChecks config now ⟨db, faults⟩ =
      (.ok (checkOrphanSchedulerRuns db ++ checkStaleHeartbeat config now db), ⟨db, faults⟩) :=
    fun now faults => runConsistencyChecks_eq (consistencyIssues_eq h config now)
  have hsilent : ∀ now repairedAt later faults issues s repairs s', Prompt config now repairedAt later db →
      runConsistencyChecks config now ⟨db, faults⟩ = (.ok issues, s) →
      applyAutoRepairs repairedAt issues s = (.ok repairs, s') →
      runConsistencyChecks config later s' = (.ok [], s') := by
    intro now repairedAt later faults issues s repairs s' hprompt hfound hrepairs
    rw [hchecks] at hfound
    cases hfound
    refine runConsistencyChecks_eq ?_
    rw [applyAutoRepairs_ok hrepairs]
    exact recovered_silent h hprompt
  refine ⟨fun now faults => ⟨_, hchecks now faults, fun issue hissue => ?_⟩, ?_, ?_, hsilent⟩
  · exact (crash_issues config now db issue hissue).1
  · intro now repairedAt issues s hfound
    rw [hchecks] at hfound
    cases hfound
    obtain ⟨repairs, hrepairs⟩ := applyAutoRepairs_run config now repairedAt db
    exact ⟨repairs, _, hrepairs⟩
  · exact fun now faults issues s repairs s' => hsilent now now now faults issues s repairs s' (prompt_same _ _ _)

/-- However an account came about from an empty one, and whatever runs and heartbeat a crash left, a recovery
finds at most stuck runs and a stale heartbeat, repairs both, and then finds nothing. -/
theorem recovery_no_false_alarm (config : PaperTradingConfig) (risk : RiskEngine IntentKey)
    (w₀ : PaperWalletState) (base : Db) (history : List Attempt) :
    NoFalseAlarm config (account config risk w₀ { base with stopHistory := [] } history) :=
  noFalseAlarm_of_audited (attempts_keep (emptyAccount_audited rfl) history) config

end Results

end TradingBot.Paper.FalseAlarms
