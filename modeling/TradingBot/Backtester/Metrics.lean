import TradingBot.Backtester.Simulation
import TradingBot.Library.Drawdown

namespace TradingBot.Backtester.Metrics

open Market.Models Backtester.Models Backtester.Simulation Library.Drawdown Library.Rounding Exceptions

def safeDiv (num den : Decimal) : Option Decimal := if den = 0 then none else some (decimalResult (num / den))

structure DrawdownSnapshot where
  time : Time
  equity : Decimal
  peakEquity : Decimal
  drawdownPct : Decimal
deriving DecidableEq, Repr

def drawdownsFrom (peak : Decimal) : List EquitySnapshot → List DrawdownSnapshot
  | [] => []
  | snap :: curve =>
    let peak := max peak snap.equity
    { time := snap.time
      equity := snap.equity
      peakEquity := peak
      drawdownPct := (safeDiv (decimalResult (peak - snap.equity)) peak).getD 0 } :: drawdownsFrom peak curve

def computeDrawdownCurve (curve : List EquitySnapshot) : List DrawdownSnapshot := drawdownsFrom 0 curve

/-- The measures of a backtest that are decimals throughout and that the research export reads. -/
structure BacktestMetrics where
  maxDrawdownPct : Decimal
  winRate : Option Decimal
  profitFactor : Option Decimal
  expectancyUsd : Option Decimal
  averageWinner : Option Decimal
  averageLoser : Option Decimal
  timeInMarketPct : Option Decimal
  tradeCount : ℕ
deriving DecidableEq, Repr

def maxDrawdownPct (curve : List EquitySnapshot) : Decimal :=
  ((computeDrawdownCurve curve).map (·.drawdownPct)).max?.getD 0

def computeMetrics (trades : List BacktestTrade) (equityCurve : List EquitySnapshot) : BacktestMetrics :=
  let netPnls := trades.filterMap (·.netPnl)
  let winners := netPnls.filter (0 < ·)
  let losers := netPnls.filter (· ≤ 0)
  let count : Decimal := netPnls.length
  let grossProfit := total decimalResult winners
  let loserPnl := total decimalResult (losers.filter (· ≠ 0))
  let grossLoss := |loserPnl|
  { maxDrawdownPct := maxDrawdownPct equityCurve
    winRate := if netPnls.isEmpty then none else safeDiv winners.length count
    profitFactor := if 0 < grossLoss then safeDiv grossProfit grossLoss else none
    expectancyUsd := if netPnls.isEmpty then none else safeDiv (total decimalResult netPnls) count
    averageWinner := if winners.isEmpty then none else safeDiv grossProfit winners.length
    averageLoser := if losers.isEmpty then none else safeDiv loserPnl losers.length
    timeInMarketPct :=
      if equityCurve.isEmpty then none
      else safeDiv (equityCurve.countP fun s => 0 < s.openPositions) equityCurve.length
    tradeCount := netPnls.length }

def runWithMetrics (config : BacktestConfig) (bundle : HistoricalDataBundle) :
    Except Exc (BacktestResult × BacktestMetrics) := do
  let rt ← runSteps config bundle (steps config bundle)
  let result := buildResult config bundle rt (buildTimeline config bundle)
  let closed := if (buildTimeline config bundle).isEmpty then [] else rt.closedTrades
  pure (result, computeMetrics closed result.equityCurve)

theorem drawdownsFrom_eq (peak : Decimal) (curve : List EquitySnapshot) :
    (drawdownsFrom peak curve).map (·.drawdownPct) = fallsFrom decimalResult peak (curve.map (·.equity)) := by
  induction curve generalizing peak with
  | nil => rfl
  | cons snap curve ih =>
    have hfall : (safeDiv (decimalResult (max peak snap.equity - snap.equity)) (max peak snap.equity)).getD 0 =
        fall decimalResult (max peak snap.equity) snap.equity := by
      by_cases hzero : max peak snap.equity = 0
      · simp [safeDiv, fall, hzero, rounds_decimalResult.map_zero]
      · simp [safeDiv, fall, hzero]
    simp only [drawdownsFrom, List.map_cons, fallsFrom, hfall, ih]

theorem maxDrawdownPct_eq (curve : List EquitySnapshot) :
    maxDrawdownPct curve = (fallsFrom decimalResult 0 (curve.map (·.equity))).foldr max 0 := by
  unfold maxDrawdownPct computeDrawdownCurve
  rw [drawdownsFrom_eq, max?_getD_eq_foldr (fallsFrom_nonneg rounds_decimalResult (by norm_num) le_rfl _)]

theorem maxDrawdownPct_nonneg (curve : List EquitySnapshot) : 0 ≤ maxDrawdownPct curve := by
  rw [maxDrawdownPct_eq]
  exact foldr_max_nonneg _

end TradingBot.Backtester.Metrics
