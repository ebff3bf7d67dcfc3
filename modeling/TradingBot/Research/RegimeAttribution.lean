import TradingBot.Library.Grouping
import TradingBot.Research.EvidenceIdentity

namespace TradingBot.Research.RegimeAttribution

open Library.Dictionary Library.Grouping Library.Outcome Research.RegimeQuality Research.EvidenceIdentity

section Records

def exact (lang : RegimeQuality.Language ℚ) : RegimeQuality.Language ℚ :=
  { lang with
    ofInt := fun n => n
    add := fun x y => x + y
    sub := fun x y => x - y
    mul := fun x y => x * y
    div := fun x y => x / y
    abs := fun x => |x|
    pow := fun x n => x ^ n
    lt := fun x y => x < y }

variable (lang : RegimeQuality.Language ℚ) (index : DayIndex)

/-- Where a trade belongs: nowhere unless it has an exit on a day that can be read. -/
def destination (trade : TradeRow) : Option Bucket :=
  if trade.exitTime = .null then none
  else
    match lang.asUtcDate trade.exitTime with
    | .error _ => none
    | .ok day => some (bucketOf index day)

def recordsAt (attribution : TradeAttribution) : Option Bucket → List TradeRow
  | none => attribution.openOrMissingExit
  | some .unlabeled => attribution.unlabeled
  | some .insufficient => attribution.insufficient
  | some (.cell cellId) => (attribution.byCell.get? cellId).getD []

def cellOf : Option Bucket → Option String
  | some (.cell cellId) => some cellId
  | _ => none

/-- A decimal field as a number; nothing is zero. -/
def number (value : Value) : ℚ := if value = .null then 0 else (lang.decimal value.str).getD 0

def net (trade : TradeRow) : ℚ := number lang trade.netPnl

def fees (trade : TradeRow) : ℚ := number lang trade.fees

def symbolOf (trade : TradeRow) : String := trade.symbol.strOr "UNKNOWN"

def closedTrades (trades : List TradeRow) : List TradeRow :=
  trades.filter fun trade => trade.exitTime ≠ .null ∧ trade.netPnl ≠ .null

def attributedTrades (trades : List TradeRow) : List TradeRow :=
  (closedTrades trades).filter fun trade => (cellOf (destination lang index trade)).isSome

def excludedTrades (trades : List TradeRow) : List TradeRow :=
  (closedTrades trades).filter fun trade => (cellOf (destination lang index trade)).isNone

end Records

section Joining

variable {lang : RegimeQuality.Language ℚ} {index : DayIndex} {attribution attribution' : TradeAttribution}
  {trade : TradeRow} {trades : List TradeRow}

theorem cellOf_eq_some {d : Option Bucket} {cellId : String} : cellOf d = some cellId ↔ d = some (.cell cellId) := by
  cases d with
  | none => simp [cellOf]
  | some bucket => cases bucket <;> simp [cellOf]

theorem recordsAt_attributeTrade (h : attributeTrade (exact lang) index attribution trade = .ok attribution')
    (d : Option Bucket) : recordsAt attribution' d =
      recordsAt attribution d ++ if destination lang index trade = d then [trade] else [] := by
  unfold attributeTrade at h
  split_ifs at h with hexit
  · cases h
    rw [destination, if_pos hexit]
    cases d with
    | none => simp [recordsAt]
    | some bucket => cases bucket <;> simp [recordsAt]
  · obtain ⟨day, hday, h⟩ := except_bind_eq_ok.mp h
    have hread : lang.asUtcDate trade.exitTime = .ok day := hday
    simp only [destination, if_neg hexit, hread]
    cases hbucket : bucketOf index day with
    | unlabeled =>
      simp only [hbucket] at h
      cases h
      cases d with
      | none => simp [recordsAt]
      | some bucket => cases bucket <;> simp [recordsAt]
    | insufficient =>
      simp only [hbucket] at h
      cases h
      cases d with
      | none => simp [recordsAt]
      | some bucket => cases bucket <;> simp [recordsAt]
    | cell own =>
      simp only [hbucket] at h
      cases h
      cases d with
      | none => simp [recordsAt]
      | some bucket =>
        cases bucket with
        | unlabeled => simp [recordsAt]
        | insufficient => simp [recordsAt]
        | cell cellId =>
          by_cases hcell : cellId = own
          · simp [recordsAt, push, Dict.get?_set, hcell]
          · simp [recordsAt, push, Dict.get?_set, hcell, Ne.symm hcell]

theorem recordsAt_empty (d : Option Bucket) : recordsAt {} d = [] := by
  cases d with
  | none => rfl
  | some bucket => cases bucket <;> rfl

theorem recordsAt_eq (h : attributeTrades (exact lang) trades index = .ok attribution) (d : Option Bucket) :
    recordsAt attribution d = group (destination lang index) trades d := by
  have hempty : ∀ d, recordsAt {} d = group (destination lang index) [] d := recordsAt_empty
  have hhistory := foldlM_history
    (fun seen attribution => ∀ d, recordsAt attribution d = group (destination lang index) seen d)
    (fun seen trade attribution attribution' hseen hstep d => by
      rw [recordsAt_attributeTrade hstep, hseen, group_append, group_cons]
      rfl) hempty h
  rw [hhistory, List.nil_append]

theorem mem_byCell_keys (h : attributeTrades (exact lang) trades index = .ok attribution) {trade : TradeRow}
    (htrade : trade ∈ trades) {cellId : String} (hcell : cellOf (destination lang index trade) = some cellId) :
    cellId ∈ attribution.byCell.keys := by
  have hmem : trade ∈ recordsAt attribution (some (.cell cellId)) := by
    rw [recordsAt_eq h, mem_group]
    exact ⟨htrade, cellOf_eq_some.mp hcell⟩
  by_contra hkey
  rw [recordsAt, Dict.get?_eq_none_iff.mpr hkey] at hmem
  exact List.not_mem_nil hmem

def labelled (lang : RegimeQuality.Language ℚ) (index : DayIndex) (trades : List TradeRow) : List TradeRow :=
  trades.filter fun trade => (cellOf (destination lang index trade)).isSome

theorem group_labelled (trades : List TradeRow) (cellId : String) :
    group (fun trade => cellOf (destination lang index trade)) (labelled lang index trades) (some cellId) =
      group (destination lang index) trades (some (.cell cellId)) := by
  rw [group, labelled, List.filter_filter, group]
  apply List.filter_congr
  intro trade _
  by_cases hcell : cellOf (destination lang index trade) = some cellId
  · simp [cellOf_eq_some.mp hcell, cellOf]
  · have hdestination : destination lang index trade ≠ some (.cell cellId) := fun h => hcell (cellOf_eq_some.mpr h)
    simp [hcell, hdestination]

theorem byCell_perm (h : attributeTrades (exact lang) trades index = .ok attribution) :
    attribution.byCell.values.flatten.Perm (labelled lang index trades) := by
  have hrows : attribution.byCell.values.flatten = (attribution.byCell.keys.map some).flatMap
      (group (fun trade => cellOf (destination lang index trade)) (labelled lang index trades)) := by
    rw [Dict.values_eq_map _ [], List.flatMap_map, ← List.flatMap_def]
    apply List.flatMap_congr
    intro cellId _
    rw [group_labelled]
    exact recordsAt_eq h (some (.cell cellId))
  rw [hrows]
  apply perm_groups
  · exact (Dict.keys_nodup _).map (Option.some_injective _)
  · intro trade htrade
    obtain ⟨hmem, hsome⟩ := List.mem_filter.mp htrade
    obtain ⟨cellId, hcell⟩ := Option.isSome_iff_exists.mp hsome
    rw [hcell]
    exact List.mem_map_of_mem (mem_byCell_keys h hmem hcell)

end Joining

section Totals

variable {lang : RegimeQuality.Language ℚ} {index : DayIndex} {attribution : TradeAttribution}
  {trades : List TradeRow} {equity : List EquityRow} {timeline : List TaggedPoint} {closes : Option (Dict ℤ ℚ)}
  {cellId : String} {raw : RegimeSliceRaw ℚ} {total : ℚ}

theorem parse_exact {value : Value} (h : (exact lang).parse value.str = .ok total) (hvalue : value ≠ .null) :
    total = number lang value := by
  have hparse : lang.parse value.str = .ok total := h
  unfold RegimeQuality.Language.parse at hparse
  cases hread : lang.decimal value.str with
  | none => simp [hread] at hparse
  | some d =>
    simp only [hread, Except.ok.injEq] at hparse
    rw [number, if_neg hvalue, hread, Option.getD_some, hparse]

theorem decimalOrZero_exact {value : Value} (h : decimalOrZero (exact lang) value = .ok total) :
    total = number lang value := by
  unfold decimalOrZero at h
  split_ifs at h with hnull
  · cases h
    rw [number, if_pos hnull]
    exact Int.cast_zero
  · exact parse_exact h hnull

theorem netPnlOf_eq (h : TradeAttribution.netPnlOf (exact lang) trades = .ok total) :
    total = (trades.map (net lang)).sum := by
  have hempty : (exact lang).zero = (([] : List TradeRow).map (net lang)).sum := Int.cast_zero
  have hhistory := foldlM_history (fun seen total => total = (seen.map (net lang)).sum)
    (fun seen trade total total' hseen hstep => by
      rw [List.map_append, List.sum_append, ← hseen, List.map_singleton, List.sum_singleton]
      split_ifs at hstep with hnull
      · cases hstep
        rw [net, number, if_pos hnull, add_zero]
      · obtain ⟨x, hx, hstep⟩ := except_bind_eq_ok.mp hstep
        cases hstep
        rw [parse_exact hx hnull]
        rfl) hempty h
  rwa [List.nil_append] at hhistory

theorem sum_exact (l : List ℚ) : (exact lang).sum l = l.sum := by
  have hzero : (exact lang).zero = 0 := Int.cast_zero
  rw [RegimeQuality.Language.sum, hzero, List.sum_eq_foldl]
  rfl

def counted (trades : List TradeRow) : List TradeRow := trades.filter (·.netPnl ≠ .null)

theorem netBySymbol_eq (rows : List (TradeRow × ℚ)) :
    netBySymbol (exact lang) rows = Dict.tally (fun row => symbolOf row.1) (fun row => row.2) rows {} := by
  have hzero : (exact lang).zero = 0 := Int.cast_zero
  rw [netBySymbol, hzero]
  rfl

theorem symbolTotals_eq (slices : List (RegimeSliceRaw ℚ)) : symbolTotals (exact lang) slices =
    Dict.tally Prod.fst Prod.snd (slices.flatMap (·.symbolNetPnl.entries)) {} := by
  have hzero : (exact lang).zero = 0 := Int.cast_zero
  rw [symbolTotals, hzero]
  rfl

structure Adds (lang : RegimeQuality.Language ℚ) (trades : List TradeRow) (raw : RegimeSliceRaw ℚ) : Prop where
  closedTrades : raw.closedTrades = trades.length
  netPnl : raw.netPnl = (trades.map (net lang)).sum
  fees : raw.fees = (trades.map (fees lang)).sum
  symbols : raw.symbolNetPnl =
    Dict.tally (fun row => symbolOf row.1) (fun row => row.2) (trades.map fun trade => (trade, net lang trade)) {}

theorem adds_of_slice (h : computeSliceMetrics (exact lang) cellId trades equity timeline closes = .ok raw) :
    Adds lang (counted trades) raw := by
  simp only [computeSliceMetrics] at h
  by_cases hinactive : ((counted trades).isEmpty && equity.isEmpty) = true
  · rw [counted] at hinactive
    rw [if_pos hinactive] at h
    cases h
    have hempty : counted trades = [] := List.isEmpty_iff.mp (Bool.and_eq_true_iff.mp hinactive).1
    have hzero : (exact lang).zero = 0 := Int.cast_zero
    rw [hempty]
    exact ⟨rfl, hzero, hzero, rfl⟩
  · rw [counted] at hinactive
    rw [if_neg hinactive] at h
    obtain ⟨pnls, hpnls, h⟩ := except_bind_eq_ok.mp h
    obtain ⟨costs, hcosts, h⟩ := except_bind_eq_ok.mp h
    obtain ⟨notionals, _, h⟩ := except_bind_eq_ok.mp h
    obtain ⟨returns, _, h⟩ := except_bind_eq_ok.mp h
    obtain ⟨drawdown, _, h⟩ := except_bind_eq_ok.mp h
    obtain ⟨time, _, h⟩ := except_bind_eq_ok.mp h
    obtain ⟨bench, _, h⟩ := except_bind_eq_ok.mp h
    cases h
    have hnet : pnls = (counted trades).map (net lang) := by
      have hresult : ∀ trade ∈ counted trades, trade.netPnl ≠ .null := fun trade htrade => by
        simpa using (List.mem_filter.mp htrade).2
      have hpairs := (List.forall₂_and_left _ _).mpr ⟨hresult, mapM_eq_ok_iff.mp hpnls⟩
      have hsame : List.Forall₂ (fun trade pnl => pnl = net lang trade) (counted trades) pnls :=
        hpairs.imp fun trade pnl hpair => parse_exact hpair.2 hpair.1
      rw [← List.forall₂_eq_eq_eq, List.forall₂_map_right_iff]
      exact hsame.flip
    have hfees : costs.map (·.1) = (counted trades).map (fees lang) := by
      refine (map_eq_of_mapM_ok ?_ hcosts).symm
      intro trade cost hcost
      obtain ⟨x, hx, hcost⟩ := except_bind_eq_ok.mp hcost
      obtain ⟨y, _, hcost⟩ := except_bind_eq_ok.mp hcost
      obtain ⟨z, _, hcost⟩ := except_bind_eq_ok.mp hcost
      cases hcost
      exact (decimalOrZero_exact hx).symm
    refine ⟨rfl, ?_, ?_, ?_⟩
    · exact (sum_exact pnls).trans (congrArg List.sum hnet)
    · exact (sum_exact _).trans (congrArg List.sum hfees)
    · have hrows : (counted trades).zip pnls = (counted trades).map fun trade => (trade, net lang trade) := by
        rw [hnet, List.zip_eq_zipWith, List.zipWith_map_right, List.zipWith_self]
      rw [netBySymbol_eq, ← counted, hrows]

variable {result : RegimeQualityResult ℚ} {digests : QualityDigests} {run : SealedRun}
  {arguments : QualityArguments ℚ} {equityAttr : EquityAttribution} {policy : QualityScorePolicy}

theorem counted_byCell (h : attributeTrades (exact lang) trades index = .ok attribution) (cellId : String) :
    counted ((attribution.byCell.get? cellId).getD []) =
      group (fun trade => cellOf (destination lang index trade)) (attributedTrades lang index trades) (some cellId) := by
  have hcell := recordsAt_eq h (some (.cell cellId))
  rw [recordsAt] at hcell
  rw [hcell, ← group_labelled, counted, group, group, labelled, attributedTrades, closedTrades, List.filter_filter,
    List.filter_filter, List.filter_filter, List.filter_filter]
  apply List.filter_congr
  intro trade _
  by_cases hexit : trade.exitTime = .null
  · simp [destination, hexit, cellOf]
  · simp [hexit, Bool.and_comm, Bool.and_assoc]

theorem attributed_cell (labels : RegimeLabels) (equityAttr : EquityAttribution)
    (h : attributeTrades (exact lang) trades index = .ok attribution) {trade : TradeRow}
    (htrade : trade ∈ attributedTrades lang index trades) :
    cellOf (destination lang index trade) ∈ (cellIds labels attribution equityAttr).map some := by
  obtain ⟨hmem, hsome⟩ := List.mem_filter.mp htrade
  obtain ⟨cellId, hcell⟩ := Option.isSome_iff_exists.mp hsome
  have hkey := mem_byCell_keys h (List.mem_of_mem_filter hmem) hcell
  rw [hcell]
  apply List.mem_map_of_mem
  simp only [cellIds, List.mem_insertionSort, List.mem_dedup, List.mem_append, hkey, true_or]

theorem cellIds_nodup (labels : RegimeLabels) (attribution : TradeAttribution) (equityAttr : EquityAttribution) :
    ((cellIds labels attribution equityAttr).map some).Nodup :=
  ((List.perm_insertionSort _ _).nodup_iff.mpr (List.nodup_dedup _)).map (Option.some_injective _)

theorem sum_slices {M : Type} [AddCommMonoid M] {value : RegimeSliceRaw ℚ → M} {f : TradeRow → M}
    (hvalue : ∀ raw trades, Adds lang trades raw → value raw = (trades.map f).sum)
    (hjoined : Joined (exact lang) run index attribution equityAttr)
    (h : Evaluated (exact lang) digests run arguments attribution equityAttr policy result) :
    (result.slices.map value).sum = ((attributedTrades lang index run.trades).map f).sum := by
  have hslices : (cellIds run.labels attribution equityAttr).map (fun cellId =>
      ((counted ((attribution.byCell.get? cellId).getD [])).map f).sum) = result.slices.map value :=
    map_eq_of_mapM_ok (fun cellId raw hraw => (hvalue _ _ (adds_of_slice hraw)).symm) h.slices
  rw [← hslices, ← sum_groups (cellIds_nodup run.labels attribution equityAttr)
    (fun trade htrade => attributed_cell _ _ hjoined.trades htrade) f, List.map_map]
  congr 1
  apply List.map_congr_left
  intro cellId _
  rw [counted_byCell hjoined.trades, Function.comp_apply]

theorem Adds.symbol (h : Adds lang trades raw) (symbol : String) : (raw.symbolNetPnl.get? symbol).getD 0 =
    (trades.map fun trade => if symbolOf trade = symbol then net lang trade else 0).sum := by
  have hempty : ((({} : Dict String ℚ).get? symbol).getD 0) = 0 := rfl
  rw [h.symbols, Dict.tally_get?, hempty, zero_add, List.filter_map, List.map_map, ← sum_group]
  rfl

theorem Adds.values (h : Adds lang trades raw) : raw.symbolNetPnl.values.sum = (trades.map (net lang)).sum := by
  have hempty : ({} : Dict String ℚ).values.sum = 0 := rfl
  rw [h.symbols, Dict.sum_values_tally, hempty, zero_add, List.map_map]
  rfl

theorem Adds.mem_symbols (h : Adds lang trades raw) (symbol : String) :
    symbol ∈ raw.symbolNetPnl.keys ↔ ∃ trade ∈ trades, symbolOf trade = symbol := by
  have hempty : ({} : Dict String ℚ).keys = [] := rfl
  simp [h.symbols, Dict.mem_keys_tally, hempty]

theorem sum_entries_slices (slices : List (RegimeSliceRaw ℚ)) (symbol : String) :
    (((slices.flatMap (·.symbolNetPnl.entries)).filter fun e => e.1 = symbol).map Prod.snd).sum =
      (slices.map fun raw => (raw.symbolNetPnl.get? symbol).getD 0).sum := by
  induction slices with
  | nil => rfl
  | cons raw slices ih =>
    rw [List.flatMap_cons, List.filter_append, List.map_append, List.sum_append, Dict.sum_entries_of_key, ih,
      List.map_cons, List.sum_cons]

theorem sum_values_slices (slices : List (RegimeSliceRaw ℚ)) :
    ((slices.flatMap (·.symbolNetPnl.entries)).map Prod.snd).sum =
      (slices.map fun raw => raw.symbolNetPnl.values.sum).sum := by
  induction slices with
  | nil => rfl
  | cons raw slices ih =>
    rw [List.flatMap_cons, List.map_append, List.sum_append, ih, List.map_cons, List.sum_cons]
    rfl

theorem symbolTotals_get? (hjoined : Joined (exact lang) run index attribution equityAttr)
    (h : Evaluated (exact lang) digests run arguments attribution equityAttr policy result) (symbol : String) :
    ((symbolTotals (exact lang) result.slices).get? symbol).getD 0 =
      ((group symbolOf (attributedTrades lang index run.trades) symbol).map (net lang)).sum := by
  have hempty : ((({} : Dict String ℚ).get? symbol).getD 0) = 0 := rfl
  rw [symbolTotals_eq, Dict.tally_get?, hempty, zero_add, sum_entries_slices,
    sum_slices (fun _ _ hadds => hadds.symbol symbol) hjoined h, sum_group]

theorem sum_symbolTotals (hjoined : Joined (exact lang) run index attribution equityAttr)
    (h : Evaluated (exact lang) digests run arguments attribution equityAttr policy result) :
    (symbolTotals (exact lang) result.slices).values.sum =
      ((attributedTrades lang index run.trades).map (net lang)).sum := by
  have hempty : ({} : Dict String ℚ).values.sum = 0 := rfl
  rw [symbolTotals_eq, Dict.sum_values_tally, hempty, zero_add, sum_values_slices,
    sum_slices (fun _ _ hadds => hadds.values) hjoined h]

theorem mem_symbolTotals (hjoined : Joined (exact lang) run index attribution equityAttr)
    (h : Evaluated (exact lang) digests run arguments attribution equityAttr policy result) (symbol : String) :
    symbol ∈ (symbolTotals (exact lang) result.slices).keys ↔
      ∃ trade ∈ attributedTrades lang index run.trades, symbolOf trade = symbol := by
  have hempty : ({} : Dict String ℚ).keys = [] := rfl
  have hslices : symbol ∈ (symbolTotals (exact lang) result.slices).keys ↔
      ∃ raw ∈ result.slices, symbol ∈ raw.symbolNetPnl.keys := by
    rw [symbolTotals_eq, Dict.mem_keys_tally, hempty]
    simp only [List.not_mem_nil, false_or, List.mem_flatMap, Dict.keys, List.mem_map]
    constructor
    · rintro ⟨item, ⟨raw, hraw, hitem⟩, heq⟩
      exact ⟨raw, hraw, item, hitem, heq⟩
    · rintro ⟨raw, hraw, item, hitem, heq⟩
      exact ⟨item, ⟨raw, hraw, hitem⟩, heq⟩
  rw [hslices]
  constructor
  · rintro ⟨raw, hraw, hsymbol⟩
    obtain ⟨cellId, _, hslice⟩ := mapM_ok_mem h.slices hraw
    obtain ⟨trade, htrade, heq⟩ := ((adds_of_slice hslice).mem_symbols symbol).mp hsymbol
    rw [counted_byCell hjoined.trades, mem_group] at htrade
    exact ⟨trade, htrade.1, heq⟩
  · rintro ⟨trade, htrade, heq⟩
    obtain ⟨cellId, hcellId, hcell⟩ :=
      List.mem_map.mp (attributed_cell run.labels equityAttr hjoined.trades htrade)
    obtain ⟨raw, hraw, hslice⟩ := mapM_mem_ok h.slices hcellId
    refine ⟨raw, hraw, ((adds_of_slice hslice).mem_symbols symbol).mpr ⟨trade, ?_, heq⟩⟩
    rw [counted_byCell hjoined.trades, mem_group]
    exact ⟨htrade, hcell.symm⟩

end Totals

section Partition

variable {lang : RegimeQuality.Language ℚ} {index : DayIndex} {attribution : TradeAttribution}
  {equityAttr : EquityAttribution} {digests : QualityDigests} {run : SealedRun} {arguments : QualityArguments ℚ}
  {policy : QualityScorePolicy} {result : RegimeQualityResult ℚ} {trades : List TradeRow}

def exited (trades : List TradeRow) : List TradeRow := trades.filter (·.exitTime ≠ .null)

theorem destination_isSome (h : attributeTrades (exact lang) trades index = .ok attribution) {trade : TradeRow}
    (htrade : trade ∈ trades) (hexit : trade.exitTime ≠ .null) : (destination lang index trade).isSome := by
  obtain ⟨before, after, hstep⟩ := foldlM_ok_mem h htrade
  rw [attributeTrade, if_neg hexit] at hstep
  obtain ⟨day, hday, _⟩ := except_bind_eq_ok.mp hstep
  have hread : lang.asUtcDate trade.exitTime = .ok day := hday
  rw [destination, if_neg hexit, hread]
  rfl

theorem labelled_eq (trades : List TradeRow) : labelled lang index trades =
    (exited trades).filter fun trade => (cellOf (destination lang index trade)).isSome := by
  rw [labelled, exited, List.filter_filter]
  apply List.filter_congr
  intro trade _
  by_cases hexit : trade.exitTime = .null
  · simp [destination, hexit, cellOf]
  · simp [hexit]

theorem excluded_perm (h : attributeTrades (exact lang) trades index = .ok attribution) :
    (attribution.unlabeled ++ attribution.insufficient).Perm
      ((exited trades).filter fun trade => !(cellOf (destination lang index trade)).isSome) := by
  have hunlabeled : attribution.unlabeled = group _ trades _ := recordsAt_eq h (some .unlabeled)
  have hinsufficient : attribution.insufficient = group _ trades _ := recordsAt_eq h (some .insufficient)
  have hsplit := List.filter_append_perm (fun trade => decide (destination lang index trade = some .unlabeled))
    ((exited trades).filter fun trade => !(cellOf (destination lang index trade)).isSome)
  have hfirst : attribution.unlabeled =
      ((exited trades).filter fun trade => !(cellOf (destination lang index trade)).isSome).filter
        fun trade => decide (destination lang index trade = some .unlabeled) := by
    rw [hunlabeled, group, exited, List.filter_filter, List.filter_filter]
    apply List.filter_congr
    intro trade _
    by_cases hexit : trade.exitTime = .null
    · simp [destination, hexit]
    · by_cases hday : destination lang index trade = some .unlabeled <;> simp [hexit, hday, cellOf]
  have hsecond : attribution.insufficient =
      ((exited trades).filter fun trade => !(cellOf (destination lang index trade)).isSome).filter
        fun trade => !decide (destination lang index trade = some .unlabeled) := by
    rw [hinsufficient, group, exited, List.filter_filter, List.filter_filter]
    apply List.filter_congr
    intro trade htrade
    by_cases hexit : trade.exitTime = .null
    · simp [destination, hexit]
    · obtain ⟨bucket, hbucket⟩ := Option.isSome_iff_exists.mp (destination_isSome h htrade hexit)
      cases bucket <;> simp [hexit, hbucket, cellOf]
  rw [hfirst, hsecond]
  exact hsplit

theorem exited_perm (h : attributeTrades (exact lang) trades index = .ok attribution) :
    (attribution.byCell.values.flatten ++ attribution.unlabeled ++ attribution.insufficient).Perm (exited trades) := by
  have hcells := byCell_perm h
  rw [labelled_eq] at hcells
  rw [List.append_assoc]
  apply (hcells.append (excluded_perm h)).trans
  exact List.filter_append_perm (fun trade => (cellOf (destination lang index trade)).isSome) (exited trades)

theorem sum_exited (p : TradeRow → Bool) (trades : List TradeRow) :
    (((exited trades).filter p).map (net lang)).sum = (((closedTrades trades).filter p).map (net lang)).sum := by
  have hclosed : closedTrades trades = (exited trades).filter (·.netPnl ≠ .null) := by
    rw [closedTrades, exited, List.filter_filter]
    apply List.filter_congr
    intro trade _
    simp [Bool.and_comm]
  rw [hclosed]
  induction exited trades with
  | nil => rfl
  | cons trade trades ih =>
    by_cases hnull : trade.netPnl = .null
    · have hzero : net lang trade = 0 := by rw [net, number, if_pos hnull]
      cases hp : p trade <;> simpa [hp, hnull, hzero] using ih
    · cases hp : p trade <;> simpa [hp, hnull] using ih

structure Partition (lang : RegimeQuality.Language ℚ) (index : DayIndex) (trades : List TradeRow)
    (attribution : TradeAttribution) (result : RegimeQualityResult ℚ) : Prop where
  once : ∀ trade ∈ trades, trade.exitTime ≠ .null → ∃! bucket, trade ∈ recordsAt attribution (some bucket)
  records : ∀ d, recordsAt attribution d = group (destination lang index) trades d
  closedTotal : attribution.closedTotal = (exited trades).length
  closedTrades : (result.slices.map (·.closedTrades)).sum = (attributedTrades lang index trades).length
  netPnl : (result.slices.map (·.netPnl)).sum = ((attributedTrades lang index trades).map (net lang)).sum
  fees : (result.slices.map (·.fees)).sum = ((attributedTrades lang index trades).map (fees lang)).sum
  attributedNetPnl : attribution.attributedNetPnl (exact lang) = .ok (result.slices.map (·.netPnl)).sum
  excludedNetPnl : attribution.excludedNetPnl (exact lang) = .ok ((excludedTrades lang index trades).map (net lang)).sum
  sourceNetPnl : attribution.sourceNetPnl (exact lang) =
    .ok ((result.slices.map (·.netPnl)).sum + ((excludedTrades lang index trades).map (net lang)).sum)
  source : (result.slices.map (·.netPnl)).sum + ((excludedTrades lang index trades).map (net lang)).sum =
    ((RegimeAttribution.closedTrades trades).map (net lang)).sum
  symbol : ∀ symbol, ((symbolTotals (exact lang) result.slices).get? symbol).getD 0 =
    ((group symbolOf (attributedTrades lang index trades) symbol).map (net lang)).sum
  symbols : ∀ symbol, symbol ∈ (symbolTotals (exact lang) result.slices).keys ↔
    ∃ trade ∈ attributedTrades lang index trades, symbolOf trade = symbol
  symbolTotals : (symbolTotals (exact lang) result.slices).values.sum = (result.slices.map (·.netPnl)).sum

structure Reports (lang : RegimeQuality.Language ℚ) (slices : List (RegimeSliceRaw ℚ)) (attribution : TradeAttribution)
    (artifact : RegimeMetrics) : Prop where
  balanced : artifact.reconciliation.balanced = true
  attributed : (attribution.attributedNetPnl (exact lang)).map lang.text = .ok artifact.reconciliation.attributedNetPnl
  excluded : (attribution.excludedNetPnl (exact lang)).map lang.text = .ok artifact.reconciliation.excludedNetPnl
  source : (attribution.sourceNetPnl (exact lang)).map lang.text = .ok artifact.reconciliation.sourceNetPnl
  fees : artifact.portfolio.costsAttributed.fees = lang.text (slices.map (·.fees)).sum
  symbols : artifact.symbols = sortedTexts (exact lang) (symbolTotals (exact lang) slices)

theorem once (h : attributeTrades (exact lang) trades index = .ok attribution) {trade : TradeRow}
    (htrade : trade ∈ trades) (hexit : trade.exitTime ≠ .null) :
    ∃! bucket, trade ∈ recordsAt attribution (some bucket) := by
  obtain ⟨bucket, hbucket⟩ := Option.isSome_iff_exists.mp (destination_isSome h htrade hexit)
  refine ⟨bucket, ?_, ?_⟩
  · simp only [recordsAt_eq h, mem_group]
    exact ⟨htrade, hbucket⟩
  · intro other hother
    simp only [recordsAt_eq h, mem_group, hbucket, Option.some.injEq] at hother
    exact hother.2.symm

theorem attributed_sum (h : attributeTrades (exact lang) trades index = .ok attribution) :
    (attribution.byCell.values.flatten.map (net lang)).sum =
      ((attributedTrades lang index trades).map (net lang)).sum := by
  have hcells := byCell_perm h
  rw [labelled_eq] at hcells
  rw [(hcells.map _).sum_eq, sum_exited, attributedTrades]

theorem excluded_sum (h : attributeTrades (exact lang) trades index = .ok attribution) :
    ((attribution.unlabeled ++ attribution.insufficient).map (net lang)).sum =
      ((excludedTrades lang index trades).map (net lang)).sum := by
  rw [((excluded_perm h).map _).sum_eq, sum_exited, excludedTrades]
  simp only [Option.not_isSome]

theorem source_sum (h : attributeTrades (exact lang) trades index = .ok attribution) :
    ((attribution.byCell.values.flatten ++ attribution.unlabeled ++ attribution.insufficient).map (net lang)).sum =
      ((closedTrades trades).map (net lang)).sum := by
  have hall : (((exited trades).filter fun _ => true).map (net lang)).sum = _ := sum_exited (fun _ => true) trades
  simp only [List.filter_true] at hall
  rw [((exited_perm h).map _).sum_eq, hall]

theorem closedTotal_eq (h : attributeTrades (exact lang) trades index = .ok attribution) :
    attribution.closedTotal = (exited trades).length := by
  rw [← (exited_perm h).length_eq, List.length_append, List.length_append, List.length_flatten]
  rfl

theorem partition_of_evaluated (hjoined : Joined (exact lang) run index attribution equityAttr)
    (h : Evaluated (exact lang) digests run arguments attribution equityAttr policy result) :
    Partition lang index run.trades attribution result ∧ Reports lang result.slices attribution result.artifact := by
  have hnet := sum_slices (fun _ _ hadds => hadds.netPnl) hjoined h
  have hfees := sum_slices (fun _ _ hadds => hadds.fees) hjoined h
  have hcount := sum_slices (f := fun _ => 1) (fun _ _ hadds => by simpa using hadds.closedTrades) hjoined h
  obtain ⟨rows, _, hartifact⟩ := except_bind_eq_ok.mp h.artifact
  obtain ⟨attributed, hattributed, hartifact⟩ := except_bind_eq_ok.mp hartifact
  obtain ⟨source, hsource, hartifact⟩ := except_bind_eq_ok.mp hartifact
  obtain ⟨excluded, hexcluded, hartifact⟩ := except_bind_eq_ok.mp hartifact
  have hattributedSum := (netPnlOf_eq hattributed).trans (attributed_sum hjoined.trades)
  have hexcludedSum := (netPnlOf_eq hexcluded).trans (excluded_sum hjoined.trades)
  have hsourceSum := netPnlOf_eq hsource
  have hsplit : source = attributed + excluded := by
    rw [hsourceSum, List.append_assoc, List.map_append, List.sum_append, netPnlOf_eq hattributed,
      netPnlOf_eq hexcluded]
  have hslices : (result.slices.map (·.netPnl)).sum = attributed := hnet.trans hattributedSum.symm
  constructor
  · constructor
    · exact fun trade htrade hexit => once hjoined.trades htrade hexit
    · exact recordsAt_eq hjoined.trades
    · exact closedTotal_eq hjoined.trades
    · simpa using hcount
    · exact hnet
    · exact hfees
    · rw [hslices]
      exact hattributed
    · rw [← hexcludedSum]
      exact hexcluded
    · rw [← hexcludedSum, hslices, ← hsplit]
      exact hsource
    · rw [← hexcludedSum, hslices, ← hsplit, hsourceSum, source_sum hjoined.trades]
    · exact symbolTotals_get? hjoined h
    · exact mem_symbolTotals hjoined h
    · rw [sum_symbolTotals hjoined h, hnet]
  · have hreport := (Except.ok.inj hartifact).symm
    constructor
    · rw [hreport, hsplit]
      simp [RegimeQuality.Language.eq, exact]
    · rw [hattributed, hreport]
      rfl
    · rw [hexcluded, hreport]
      rfl
    · rw [hsource, hreport]
      rfl
    · rw [hreport]
      exact congrArg lang.text (sum_exact _)
    · rw [hreport]

/-- The regimes' slices are a partition of the closed trades: each trade is in one bucket, and what the slices, the
excluded trades and the symbols add up to are the totals. -/
theorem attribution_partition (lang : RegimeQuality.Language ℚ) (digests : QualityDigests) (run : SealedRun)
    (arguments : QualityArguments ℚ) (result : RegimeQualityResult ℚ)
    (h : evaluateRegimeQuality (exact lang) digests run arguments = .ok result) :
    ∃ index attribution, indexDayLabels (exact lang) run.labels.dayLabels = .ok index ∧
      attributeTrades (exact lang) run.trades index = .ok attribution ∧
      Partition lang index run.trades attribution result ∧ Reports lang result.slices attribution result.artifact := by
  obtain ⟨index, attribution, equityAttr, policy, hjoined, hevaluated⟩ := evaluateRegimeQuality_ok_iff.mp h
  exact ⟨index, attribution, hjoined.labels, hjoined.trades, partition_of_evaluated hjoined hevaluated⟩

def sampleLanguage : RegimeQuality.Language ℚ where
  decimal text :=
    if text = "10" then some 10 else if text = "-3" then some (-3) else if text = "1" then some 1
    else if text = "0.5" then some (1 / 2) else if text = "0.3" then some (3 / 10) else if text = "0.2" then some (1 / 5)
    else none
  fromIsoFormat text := if text = "2024-01-01" then some 0 else if text = "2024-01-02" then some 1 else none
  int _ := none
  ofInt n := n
  text x := if x = 10 then "10" else if x = -3 then "-3" else if x = 7 then "7" else if x = 1 then "1" else "0"
  add x y := x + y
  sub x y := x - y
  mul x y := x * y
  div x y := x / y
  abs x := |x|
  pow x n := x ^ n
  sqrt x := x
  quantize x _ := x
  lt x y := x < y

def sampleRun : SealedRun where
  labels :=
    { datasetId := .string "d1"
      datasetContentHash := .string "h1"
      dayLabels := [some (labelledDay "2024-01-01")] }
  trades :=
    [{ symbol := .string "BTC", exitTime := .string "2024-01-01", netPnl := .string "10", fees := .string "1" },
      { symbol := .string "ETH", exitTime := .string "2024-01-02", netPnl := .string "-3", fees := .string "1" }]
  equity := []
  runId := "run"
  experimentId := "exp"

theorem attribution_partition_sampleRun : ∃ digests index attribution result,
    evaluateRegimeQuality (exact sampleLanguage) digests sampleRun {} = .ok result ∧
      Partition sampleLanguage index sampleRun.trades attribution result := by
  let digests : QualityDigests := ⟨fun _ => "p", fun _ => "q"⟩
  have hok : (evaluateRegimeQuality (exact sampleLanguage) digests sampleRun {}).isOk = true := by decide +kernel
  obtain ⟨result, hresult⟩ := Library.Outcome.exists_of_isOk hok
  obtain ⟨index, attribution, _, _, hpartition, _⟩ :=
    attribution_partition sampleLanguage digests sampleRun {} result hresult
  exact ⟨digests, index, attribution, result, hresult, hpartition⟩

end Partition

end TradingBot.Research.RegimeAttribution
