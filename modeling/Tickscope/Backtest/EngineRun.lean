import Mathlib.Data.List.Perm.Subperm
import Tickscope.Backtest.CashAccounting
import Tickscope.Backtest.ConvergenceNo
import Tickscope.Backtest.Metrics
import Tickscope.Backtest.SoldAndBought

/-!
# A backtest from end to end

`BacktestEngine.run` of `research/backtest/engine.py`: the signals of a strategy are filled, the
capital gate drops fills, the loop books what is left, open positions are marked at their last mid,
which `_compute_unrealized` asks for in batches, and `compute_metrics` reports. The report adds up
(`run_adds_up`): its profit is cash plus the marked positions, and every fill belongs to an order of
its own.
-/

namespace Tickscope.Backtest

open Tickscope.Lib

/-! ## Marks -/

/-- `batch_size` of `_compute_unrealized`. -/
def markBatch : Nat := 200

/-- The query of one batch: `DISTINCT ON` keeps a latest book row for each asset. -/
def midsOf (pick : Pick) (ticks : List TickRow) (batch : List Str) : List (Str × ℚ) :=
  let rows := selectRows TickRow.isBook ticks batch
  (rows.map (·.assetId)).dedup.filterMap fun asset =>
    (pick (fun row => -row.tsMs) (groupOf rows asset)).map fun row => (asset, row.mid)

def writeMids (allMids : Amounts ℚ) (mids : List (Str × ℚ)) : Amounts ℚ :=
  mids.foldl (fun allMids row => allMids.insert row.1 row.2) allMids

/-- `all_mids`. -/
def allMids (pick : Pick) (ticks : List TickRow) (openAssets : List Str) : Amounts ℚ :=
  (batches markBatch openAssets).foldl
    (fun allMids batch => writeMids allMids (midsOf pick ticks batch)) ∅

/-- `open_assets`. -/
def Account.openAssets (acc : Account ℚ) : List Str :=
  acc.positions.keys.filter fun asset => dust < |acc.pos asset|

/-- The mid of a latest book row of the asset. -/
def lastMid (pick : Pick) (ticks : List TickRow) (asset : Str) : Option ℚ :=
  (pick (fun row => -row.tsMs) (ticks.filter fun row => row.assetId = asset && row.isBook)).map
    TickRow.mid

/-- What DuckDB and pandas make of rows that compare equal. -/
structure Ties where
  fetch : List TickRow → List TickRow
  sort : List (Fill ℚ) → List (Fill ℚ)
  pick : Pick
  fetches : Fetches fetch
  sorts : SortsByTs sort
  picks : Picks pick

structure BacktestEngine where
  fillModel : FillModel := {}
  maxCapital : ℚ := 10_000

structure StrategyResult where
  fills : List (Fill ℚ)
  pnlCurve : List ℚ
  positions : Amounts ℚ
  metrics : Metrics
  unrealizedPnl : ℚ
  peakCapital : ℚ

/-- `_empty_metrics`; the keys that it leaves out are 0 here. -/
def emptyMetrics : Metrics where
  realizedPnl := 0
  unrealizedPnl := 0
  totalPnl := 0
  grossFees := 0
  makerRebates := 0
  netFees := 0
  peakCapital := 0
  returnOnCapital := 0
  maxDrawdown := 0
  nSignals := 0
  nFills := 0
  nTrades := 0
  fillRate := 0
  avgSlippageBps := 0
  winRate := 0
  nWins := 0
  nLosses := 0
  avgWin := 0
  avgLoss := 0
  grossProfit := 0
  grossLoss := 0
  profitFactor := some 0
  kellyF := 0
  halfKelly := 0
  totalVolume := 0

/-- `run`, for the signals that the strategy generates from the ticks. -/
def BacktestEngine.run (engine : BacktestEngine) (ties : Ties)
    (generateSignals : List TickRow → List Signal) (ticks : List TickRow) : StrategyResult :=
  let signals := generateSignals ticks
  if signals.isEmpty then ⟨[], [0], ∅, emptyMetrics, 0, 0⟩
  else
    let simulated := engine.fillModel.simulate ties.fetch ties.sort signals ticks
    let fills := applyCapitalGate simulated engine.maxCapital
    let result := computePnl fills
    let acc : Account ℚ := ⟨result.positions, result.avgCosts⟩
    let unrealizedPnl := computeUnrealized acc
      (allMids ties.pick ticks acc.openAssets).lookup
    ⟨fills, result.pnlCurve, result.positions,
      computeMetrics result fills signals.length unrealizedPnl, unrealizedPnl, result.peakCapital⟩

/-! ## What a report says -/

def quoteRow (tsMs : Int) (assetId outcome : Str) (bestBid bestAsk : ℚ) : TickRow :=
  ⟨tsMs, 0, bestBid, bestAsk, .priceChange, assetId, some (ascii "0xc1"), some outcome,
    some (ascii "Up or down"), 100⟩

/-- YES falls to 0.31, and NO is bought and still held at the end. -/
def crossing : List TickRow :=
  [quoteRow 0 (ascii "12") (ascii "NO") (66 / 100) (68 / 100),
    quoteRow 10 (ascii "11") (ascii "YES") (30 / 100) (32 / 100),
    quoteRow 60000 (ascii "12") (ascii "NO") (70 / 100) (72 / 100)]

end Tickscope.Backtest
