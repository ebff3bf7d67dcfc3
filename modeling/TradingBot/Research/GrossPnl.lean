import TradingBot.Backtester.StopPhase
import TradingBot.Backtester.TradePrices
import TradingBot.Research.RunIdentity

namespace TradingBot.Research.GrossPnl

open Market.Models Exceptions Library.Dictionary Library.Outcome Backtester.Lifecycle Backtester.Models
open Backtester.Simulation Backtester.Structure Backtester.Conservation Backtester.Positions Backtester.TradePrices
open Backtester.Metrics
open Research.Models Research.Metrics Research.RunIdentity
open Backtester.StopPhase (fallingBundle)

section Frictionless

variable (config : BacktestConfig) (bundle : HistoricalDataBundle)

def endMark (dataEnd : Option Time) (t : BacktestTrade) : Decimal :=
  ((dataEnd.bind fun day => closesOn config bundle day t.symbol)).getD t.entryFillPrice

def referencePnl (t : BacktestTrade) (exitPrice : Decimal) : Decimal :=
  t.quantity * (exitPrice - t.entryReferencePrice)

def frictionlessPnl (result : BacktestResult) : Decimal :=
  (result.trades.filterMap fun t => t.exitReferencePrice.map (referencePnl t)).sum +
    ((result.trades.filter (·.exitReferencePrice = none)).map fun t =>
      referencePnl t (endMark config bundle result.dataEnd t)).sum

/-- Slippage is charged as a cost at a negative price, too, where it makes the fill better. -/
def chargedBack (t : BacktestTrade) : Decimal :=
  match t.exitReferencePrice with
  | some reference =>
    if reference < 0 then
      2 * computeSlippageCost reference (applyExitSlippage reference config.slippageBps) t.quantity
    else 0
  | none => 0

def NonnegativeOpens : Prop := ∀ symbol ∈ config.symbols, ∀ c ∈ bundle.daily symbol, 0 ≤ c.openPrice

end Frictionless

section Trades

variable {config : BacktestConfig} {bundle : HistoricalDataBundle} {t : BacktestTrade} {reference : Decimal}

theorem entryCost_eq (h : Entered config t) (hslippage : 0 ≤ config.slippageBps) :
    entryCost t = (t.entryFillPrice - t.entryReferencePrice) * t.quantity := by
  have hrate : 0 ≤ config.slippageBps / 10000 := div_nonneg hslippage (by norm_num)
  have hfill : t.entryFillPrice = t.entryReferencePrice * (1 + config.slippageBps / 10000) := h.fill
  have hreference : 0 < t.entryReferencePrice := by
    have hpositive := h.positive
    rw [hfill] at hpositive
    exact (mul_pos_iff_of_pos_right (by linarith)).mp hpositive
  have hworse : 0 ≤ t.entryFillPrice - t.entryReferencePrice := by
    rw [hfill]
    have := mul_nonneg hreference.le hrate
    linarith
  simp only [entryCost, computeSlippageCost, abs_of_nonneg hworse]

theorem exitCost_eq (hslippage : 0 ≤ config.slippageBps) (h : t.exitReferencePrice = some reference) :
    computeSlippageCost reference (applyExitSlippage reference config.slippageBps) t.quantity =
      (reference - applyExitSlippage reference config.slippageBps) * t.quantity + chargedBack config t := by
  have hrate : 0 ≤ config.slippageBps / 10000 := div_nonneg hslippage (by norm_num)
  have hfill : applyExitSlippage reference config.slippageBps - reference =
      -(reference * (config.slippageBps / 10000)) := by
    simp only [applyExitSlippage]
    ring
  simp only [chargedBack, h, computeSlippageCost]
  by_cases hnegative : reference < 0
  · have hbetter : 0 ≤ applyExitSlippage reference config.slippageBps - reference := by
      rw [hfill, neg_nonneg]
      exact mul_nonpos_of_nonpos_of_nonneg hnegative.le hrate
    rw [if_pos hnegative, abs_of_nonneg hbetter]
    ring
  · have hworse : applyExitSlippage reference config.slippageBps - reference ≤ 0 := by
      rw [hfill, neg_nonpos]
      exact mul_nonneg (not_lt.mp hnegative) hrate
    rw [if_neg hnegative, abs_of_nonpos hworse]
    ring

theorem closedTrade_gross (h : ClosedTrade config bundle t) (hslippage : 0 ≤ config.slippageBps) :
    ∃ reference, t.exitReferencePrice = some reference ∧
      t.netPnl.getD 0 + t.fees + t.funding + t.slippageCost = referencePnl t reference + chargedBack config t := by
  obtain ⟨reference, hexited, _⟩ := h.exited
  refine ⟨reference, hexited.exit, ?_⟩
  rw [hexited.net, hexited.slippage, exitCost_eq hslippage hexited.exit, entryCost_eq h.toEntered hslippage,
    Option.getD_some, referencePnl]
  ring

theorem openTrade_gross {symbol : String} (h : OpenTrade config symbol t) (hslippage : 0 ≤ config.slippageBps)
    (mark : Decimal) : t.quantity * (mark - t.entryFillPrice) + t.slippageCost = referencePnl t mark := by
  rw [h.slippage, entryCost_eq h.toEntered hslippage, referencePnl]
  ring

theorem chargedBack_openTrade {symbol : String} (h : OpenTrade config symbol t) : chargedBack config t = 0 := by
  simp only [chargedBack, h.noExit]

theorem chargedBack_of_nonnegativeOpens (h : ClosedTrade config bundle t) (hopens : NonnegativeOpens config bundle) :
    chargedBack config t = 0 := by
  obtain ⟨reference, hexited, hreference⟩ := h.exited
  have hnonneg : 0 ≤ reference := by
    cases hreference with
    | inl hstop => exact hstop.le
    | inr hopen =>
      obtain ⟨symbol, hsymbol, c, hc, hprice⟩ := hopen
      exact hprice ▸ hopens symbol hsymbol c hc
  simp only [chargedBack, hexited.exit, if_neg (not_lt.mpr hnonneg)]

end Trades

section Sums

variable {config : BacktestConfig} {bundle : HistoricalDataBundle} {trades : List BacktestTrade}

theorem closedTrades_gross (h : ∀ t ∈ trades, ClosedTrade config bundle t) (hslippage : 0 ≤ config.slippageBps) :
    (trades.map (·.netPnl.getD 0)).sum + (trades.map (·.fees)).sum + (trades.map (·.funding)).sum +
        (trades.map (·.slippageCost)).sum =
      (trades.filterMap fun t => t.exitReferencePrice.map (referencePnl t)).sum +
        (trades.map (chargedBack config)).sum := by
  induction trades with
  | nil => simp
  | cons t trades ih =>
    have hrest := ih fun t' ht' => h t' (List.mem_cons_of_mem t ht')
    obtain ⟨reference, hexit, hgross⟩ := closedTrade_gross (h t List.mem_cons_self) hslippage
    simp only [List.filterMap_cons, hexit, Option.map_some, List.map_cons, List.sum_cons]
    linarith

theorem openTrades_gross (h : ∀ t ∈ trades, ∃ symbol, OpenTrade config symbol t) (hslippage : 0 ≤ config.slippageBps)
    (mark : BacktestTrade → Decimal) :
    (trades.map fun t => t.quantity * (mark t - t.entryFillPrice)).sum + (trades.map (·.slippageCost)).sum =
      (trades.map fun t => referencePnl t (mark t)).sum := by
  rw [← List.sum_map_add]
  apply congrArg List.sum
  apply List.map_congr_left
  intro t ht
  obtain ⟨symbol, hopen⟩ := h t ht
  exact openTrade_gross hopen hslippage (mark t)

theorem trades_split {closed opened : List BacktestTrade} (hclosed : ∀ t ∈ closed, ClosedTrade config bundle t)
    (hopened : ∀ t ∈ opened, ∃ symbol, OpenTrade config symbol t) :
    (closed ++ opened).filter (·.exitReferencePrice = none) = opened ∧
      ((closed ++ opened).filterMap fun t => t.exitReferencePrice.map (referencePnl t)) =
        closed.filterMap fun t => t.exitReferencePrice.map (referencePnl t) := by
  constructor
  · have hnone : closed.filter (·.exitReferencePrice = none) = [] := by
      apply List.filter_eq_nil_iff.mpr
      intro t ht
      obtain ⟨reference, hexited, _⟩ := (hclosed t ht).exited
      simp [hexited.exit]
    have hall : opened.filter (·.exitReferencePrice = none) = opened := by
      apply List.filter_eq_self.mpr
      intro t ht
      obtain ⟨symbol, hopen⟩ := hopened t ht
      simp [hopen.noExit]
    rw [List.filter_append, hnone, hall, List.nil_append]
  · have hnone : (opened.filterMap fun t => t.exitReferencePrice.map (referencePnl t)) = [] := by
      apply List.filterMap_eq_nil_iff.mpr
      intro t ht
      obtain ⟨symbol, hopen⟩ := hopened t ht
      simp [hopen.noExit]
    rw [List.filterMap_append, hnone, List.append_nil]

end Sums

section Run

variable {config : BacktestConfig} {bundle : HistoricalDataBundle} {rt : Runtime}

def SamePositions (result : BacktestResult) : Prop :=
  (result.openPositions.map fun p => (p.symbol, p.quantity, p.entryPrice)) =
    (result.trades.filter (·.exitReferencePrice = none)).map fun t => (t.symbol, t.quantity, t.entryFillPrice)

theorem reached_openTrades (h : Reached config bundle rt) :
    ∀ t ∈ rt.activeTrades.values, ∃ symbol, OpenTrade config symbol t := by
  intro t ht
  obtain ⟨symbol, htrade⟩ := Dict.mem_values_iff.mp ht
  have hmem := Dict.mem_keys_of_get? htrade
  rw [(reached_coherent h).trades] at hmem
  obtain ⟨pos, hpos⟩ := Option.isSome_iff_exists.mp (Dict.get?_isSome_iff.mpr hmem)
  exact ⟨symbol, ((reached_priced h).held symbol pos t hpos htrade).toOpenTrade⟩

theorem map_positions {γ : Type} {f : SimulatedPositionOf String → γ} {g : BacktestTrade → γ}
    (h : Reached config bundle rt)
    (hpair : ∀ pos t, t.symbol = pos.symbol → t.quantity = pos.quantity → t.entryFillPrice = pos.entryPrice →
      f pos = g t) : rt.positions.values.map f = rt.activeTrades.values.map g := by
  apply Dict.map_values_eq (reached_coherent h).trades.symm
  intro symbol pos t hpos ht
  have hheld := (reached_priced h).held symbol pos t hpos ht
  have hsymbol := (reached_sound h symbol pos hpos).ownSymbol
  exact hpair pos t (hheld.ownSymbol.trans hsymbol.symm) hheld.quantity hheld.entryPrice

theorem computeUnrealizedPnl_eq (h : Reached config bundle rt) (last : Time) :
    computeUnrealizedPnl rt.positions.values (closesOn config bundle last) =
      (rt.activeTrades.values.map fun t =>
        t.quantity * (endMark config bundle (some last) t - t.entryFillPrice)).sum := by
  apply congrArg List.sum
  apply map_positions h
  intro pos t hsymbol hquantity hprice
  simp only [endMark, Option.bind_some, hsymbol, hquantity, hprice]

theorem trades_gross (h : Reached config bundle rt) (hslippage : 0 ≤ config.slippageBps) (last : Time) :
    rt.cash + computeUnrealizedPnl rt.positions.values (closesOn config bundle last) - config.initialCash +
        rt.totalFees + rt.totalSlippage + rt.totalFunding =
      (rt.closedTrades.filterMap fun t => t.exitReferencePrice.map (referencePnl t)).sum +
        (rt.activeTrades.values.map fun t => referencePnl t (endMark config bundle (some last) t)).sum +
        (rt.closedTrades.map (chargedBack config)).sum := by
  have hbalanced := reached_balanced h
  have hclosed := closedTrades_gross (reached_priced h).closed hslippage
  have hopened := openTrades_gross (reached_openTrades h) hslippage (endMark config bundle (some last))
  have haccrued : (rt.activeTrades.values.map accrued).sum =
      (rt.activeTrades.values.map (·.fees)).sum + (rt.activeTrades.values.map (·.funding)).sum := by
    rw [← List.sum_map_add]
    rfl
  rw [computeUnrealizedPnl_eq h, hbalanced.cash, hbalanced.fees, hbalanced.funding, hbalanced.slippage, haccrued]
  simp only [trades, List.map_append, List.sum_append]
  linarith

theorem chargedBack_openTrades (h : Reached config bundle rt) :
    (rt.activeTrades.values.map (chargedBack config)).sum = 0 := by
  have hzero : rt.activeTrades.values.map (chargedBack config) = rt.activeTrades.values.map fun _ => 0 := by
    apply List.map_congr_left
    intro t ht
    obtain ⟨symbol, hopen⟩ := reached_openTrades h t ht
    exact chargedBack_openTrade hopen
  rw [hzero]
  simp

theorem run_gross {result : BacktestResult} (hslippage : 0 ≤ config.slippageBps) (h : run config bundle = .ok result) :
    result.endCapital - config.initialCash + result.totalFees + result.totalSlippage + result.totalFunding =
        frictionlessPnl config bundle result + (result.trades.map (chargedBack config)).sum ∧
      SamePositions result ∧
      (NonnegativeOpens config bundle → (result.trades.map (chargedBack config)).sum = 0) := by
  obtain ⟨rt, hrun, hresult⟩ := except_bind_eq_ok.mp h
  cases hresult
  have hreached : Reached config bundle rt := ⟨_, [], (List.append_nil _).symm, hrun⟩
  cases htimeline : buildTimeline config bundle with
  | nil => simp [buildResult, frictionlessPnl, SamePositions]
  | cons first rest =>
    obtain ⟨hopen, hexits⟩ := trades_split (reached_priced hreached).closed (reached_openTrades hreached)
    refine ⟨?_, ?_, ?_⟩
    · have hgross := trades_gross hreached hslippage ((first :: rest).getLastD first)
      simp only [buildResult, frictionlessPnl, computeEquity, hopen, hexits, List.map_append, List.sum_append,
        chargedBack_openTrades hreached, add_zero]
      exact hgross
    · simp only [SamePositions, buildResult, hopen]
      apply map_positions hreached
      intro pos t hsymbol hquantity hprice
      rw [hsymbol, hquantity, hprice]
    · intro hopens
      simp only [buildResult, List.map_append, List.sum_append, chargedBack_openTrades hreached, add_zero]
      apply List.sum_eq_zero
      intro charge hcharge
      obtain ⟨t, ht, hcharge⟩ := List.mem_map.mp hcharge
      rw [← hcharge]
      exact chargedBack_of_nonnegativeOpens ((reached_priced hreached).closed t ht) hopens

end Run

section Export

variable {spec : ExperimentSpec} {bundle : HistoricalDataBundle} {result : BacktestResult} {metrics : ResearchMetrics}

theorem configFromSpec_ok {config : BacktestConfig} (h : configFromSpec spec = .ok config) :
    config.initialCash = spec.startingCapital ∧ config.slippageBps = spec.slippageAssumption.slippageBps := by
  obtain ⟨_, _, h⟩ := except_bind_eq_ok.mp h
  simp only [bind, Except.bind, pure, Except.pure, throw, throwThe, MonadExceptOf.throw] at h
  split_ifs at h
  cases h
  exact ⟨rfl, rfl⟩

theorem run_of_runWithMetrics {config : BacktestConfig} {m : BacktestMetrics}
    (h : runWithMetrics config bundle = .ok (result, m)) : run config bundle = .ok result := by
  obtain ⟨rt, hrun, hresult⟩ := except_bind_eq_ok.mp h
  cases hresult
  exact except_bind_eq_ok.mpr ⟨rt, hrun, rfl⟩

theorem metricsFromResult_grossPnl {m : BacktestMetrics} (h : metricsFromResult spec result m bundle = .ok metrics) :
    metrics.grossPnl = result.endCapital - spec.startingCapital + result.totalFees + result.totalSlippage +
      result.totalFunding := by
  obtain ⟨benchmark, _, h⟩ := except_bind_eq_ok.mp h
  rw [validateMetrics_ok h]
  rfl

/-- The exported gross result of a run is its frictionless result, and twice the slippage of the exits at negative
prices, of which there are none where no day opens at a negative price. -/
theorem gross_pnl_frictionless (spec : ExperimentSpec) (bundle : HistoricalDataBundle) (result : BacktestResult)
    (metrics : ResearchMetrics) (hslippage : 0 ≤ spec.slippageAssumption.slippageBps)
    (h : runBound spec bundle = .ok (result, metrics)) :
    ∃ config, configFromSpec spec = .ok config ∧ SamePositions result ∧
      metrics.grossPnl =
        frictionlessPnl config bundle result + (result.trades.map (chargedBack config)).sum ∧
      (NonnegativeOpens config bundle → metrics.grossPnl = frictionlessPnl config bundle result) := by
  obtain ⟨config, hconfig, h⟩ := except_bind_eq_ok.mp h
  obtain ⟨⟨result', m⟩, hrun, h⟩ := except_bind_eq_ok.mp h
  obtain ⟨metrics', hmetrics, h⟩ := except_bind_eq_ok.mp h
  cases h
  obtain ⟨hcash, hbps⟩ := configFromSpec_ok hconfig
  obtain ⟨hgross, hsame, hnone⟩ := run_gross (hbps ▸ hslippage) (run_of_runWithMetrics hrun)
  rw [hcash, ← metricsFromResult_grossPnl hmetrics] at hgross
  refine ⟨config, hconfig, hsame, hgross, ?_⟩
  intro hopens
  rw [hgross, hnone hopens, add_zero]

end Export

section Samples

def plainSpec : ExperimentSpec where
  parameters := sampleConfig.strategyParams
  datasetManifestRef := { datasetId := "sample", contentHash := "sample" }
  symbols := [.BTC]
  timeRange := ⟨0, 4 * day⟩
  startingCapital := 100000
  feeAssumption := { entryFeeRate := 5 / 10000, exitFeeRate := 5 / 10000 }
  slippageAssumption := { slippageBps := 5 }
  fundingAssumption := {}
  symbolConstraints := Dict.set {} "BTC"
    { quantityStep := 1 / 1000, minimumQuantity := 1 / 1000, priceTickSize := 1 / 10 }
  benchmark := "buy_and_hold_BTC"

theorem gross_pnl_frictionless_plain : ∃ result metrics,
    runBound plainSpec (fallingBundle 50 40) = .ok (result, metrics) ∧
      ∃ config, metrics.grossPnl = frictionlessPnl config (fallingBundle 50 40) result := by
  have hreturns : (runBound plainSpec (fallingBundle 50 40)).isOk = true := by decide +kernel
  obtain ⟨⟨result, metrics⟩, hrun⟩ := Library.Outcome.exists_of_isOk hreturns
  have hslippage : 0 ≤ plainSpec.slippageAssumption.slippageBps := by decide +kernel
  obtain ⟨config, hconfig, _, _, hgross⟩ :=
    gross_pnl_frictionless plainSpec (fallingBundle 50 40) result metrics hslippage hrun
  refine ⟨result, metrics, hrun, config, hgross ?_⟩
  intro symbol hsymbol c hc
  have hopens : ∀ c ∈ (fallingBundle 50 40).daily "BTC", 0 ≤ c.openPrice := by decide +kernel
  exact hopens c hc

/-- A day that opens below zero gives a fill that is better than its reference, and is charged for it. -/
theorem slippage_charged_below_zero : ¬ ∀ (spec : ExperimentSpec) (bundle : HistoricalDataBundle)
    (result : BacktestResult) (metrics : ResearchMetrics) (config : BacktestConfig),
    0 ≤ spec.slippageAssumption.slippageBps → runBound spec bundle = .ok (result, metrics) →
      configFromSpec spec = .ok config → metrics.grossPnl = frictionlessPnl config bundle result := by
  intro hclaim
  have hdiffers : (do
      let (result, metrics) ← runBound plainSpec (fallingBundle (-50) (-60))
      let config ← configFromSpec plainSpec
      pure (decide (metrics.grossPnl = frictionlessPnl config (fallingBundle (-50) (-60)) result))).toOption =
        some false := by
    decide +kernel
  cases hrun : runBound plainSpec (fallingBundle (-50) (-60)) with
  | error exc =>
    rw [hrun] at hdiffers
    cases hdiffers
  | ok out =>
    obtain ⟨result, metrics⟩ := out
    cases hconfig : configFromSpec plainSpec with
    | error exc =>
      rw [hrun, hconfig] at hdiffers
      cases hdiffers
    | ok config =>
      have hsame := hclaim plainSpec _ result metrics config (by decide +kernel) hrun hconfig
      rw [hrun, hconfig] at hdiffers
      simp [bind, Except.bind, pure, Except.pure, Except.toOption, hsame] at hdiffers

end Samples

end TradingBot.Research.GrossPnl
