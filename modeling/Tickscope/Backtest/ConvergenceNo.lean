import Tickscope.Backtest.Ticks
import Tickscope.Lib.Stdio
import Tickscope.Lib.Ties

/-!
# The signals of ConvergenceNo

The query of `research/backtest/strategies/convergence_no.py`, one definition for each of its
subqueries. `DISTINCT ON` keeps one row of least rank for each condition; which one, if several
have it, is left to `pick`. A condition has one row in `first_cross` and one in `no_assets`, so the
later subqueries pick from the rows that are joined to one entry.
-/

namespace Tickscope.Backtest

open Tickscope.Lib

structure ConvergenceNo where
  threshold : ℚ := 35 / 100
  exitThreshold : ℚ := 90 / 100
  size : ℚ := 10
  useLimit : Bool := false

/-- What `DISTINCT ON` keeps of some rows, by rank. -/
abbrev Pick := (TickRow → Int) → List TickRow → Option TickRow

/-- A row of least rank, if there is a row. -/
def Picks (pick : Pick) : Prop :=
  ∀ rank rows, (∀ row, pick rank rows = some row → row ∈ rows ∧ ∀ r ∈ rows, rank row ≤ rank r) ∧
    (pick rank rows = none → rows = [])

/-- The first such row in the order of the table. -/
def pickFirst (rank : TickRow → Int) (rows : List TickRow) : Option TickRow :=
  (sortBy rank rows).head?

theorem picks_pickFirst : Picks pickFirst := by
  intro rank rows
  constructor
  · intro row found
    obtain ⟨rest, sorted⟩ := List.head?_eq_some_iff.mp found
    have least := sorted_sortBy rank rows
    rw [sorted] at least
    have mem : ∀ r, r ∈ rows ↔ r ∈ row :: rest := fun r => by
      rw [← sorted, (sortBy_perm rank rows).mem_iff]
    refine ⟨(mem row).mpr List.mem_cons_self, fun r memRows => ?_⟩
    rcases List.mem_cons.mp ((mem r).mp memRows) with rfl | later
    · exact le_rfl
    · exact (List.pairwise_cons.mp least).1 r later
  · intro none
    have empty := sortBy_perm rank rows
    rw [List.head?_eq_none_iff.mp none] at empty
    exact empty.symm.eq_nil

/-! ## Subqueries -/

/-- `question ILIKE '%up or down%'`. -/
def upOrDown (question : Option Str) : Bool :=
  question.any fun question => occursIn (ascii "up or down") (toLower question)

/-- `(best_bid + best_ask) / 2.0`. -/
def TickRow.mid (row : TickRow) : ℚ := (row.bestBid + row.bestAsk) / 2

/-- `yes_book` and `no_book`, which differ in the outcome. -/
def outcomeBook (outcome : Str) (ticks : List TickRow) : List TickRow :=
  ticks.filter fun row =>
    row.isBook && decide (0 < row.feeBps) && decide (row.outcome = some outcome) &&
      upOrDown row.question && row.conditionId.isSome

def yesBook (ticks : List TickRow) : List TickRow := outcomeBook (ascii "YES") ticks

def noBook (ticks : List TickRow) : List TickRow := outcomeBook (ascii "NO") ticks

structure Cross where
  conditionId : Str
  tsMs : Int

/-- `mid <= threshold`. -/
def ConvergenceNo.crossings (cfg : ConvergenceNo) (ticks : List TickRow) : List TickRow :=
  (yesBook ticks).filter fun row => row.mid ≤ cfg.threshold

/-- The conditions of some rows. -/
def conditionsOf (rows : List TickRow) : List Str :=
  (rows.filterMap (·.conditionId)).dedup.insertionSort (· ≤ ·)

def ConvergenceNo.firstCrossOf (cfg : ConvergenceNo) (pick : Pick) (ticks : List TickRow)
    (c : Str) : Option Cross :=
  (pick TickRow.tsMs ((cfg.crossings ticks).filter fun row => row.conditionId = some c)).map
    fun row => ⟨c, row.tsMs⟩

def ConvergenceNo.firstCross (cfg : ConvergenceNo) (pick : Pick) (ticks : List TickRow) :
    List Cross :=
  (conditionsOf (cfg.crossings ticks)).filterMap (cfg.firstCrossOf pick ticks)

/-- `MAX(CASE WHEN outcome = 'NO' THEN asset_id END)` of a condition, which must not be null. -/
def noAsset (ticks : List TickRow) (c : Str) : Option Str :=
  let rows := ticks.filter fun row =>
    decide (row.conditionId = some c) && upOrDown row.question && decide (0 < row.feeBps)
  let names := (rows.filter fun row => row.outcome = some (ascii "NO")).map (·.assetId)
  (names.insertionSort (· ≤ ·)).getLast?

structure NoEntry where
  conditionId : Str
  tsMs : Int
  noAsset : Str
  noAsk : ℚ
  noBid : ℚ

/-- The rows that are joined to a cross. -/
def nearCross (ticks : List TickRow) (fc : Cross) (asset : Str) : List TickRow :=
  ticks.filter fun row =>
    decide (row.assetId = asset) && row.isBook &&
      decide (fc.tsMs - 5000 ≤ row.tsMs ∧ row.tsMs ≤ fc.tsMs + 5000)

def noEntryOf (pick : Pick) (ticks : List TickRow) (fc : Cross) : Option NoEntry :=
  (noAsset ticks fc.conditionId).bind fun asset =>
    (pick (fun row => |row.tsMs - fc.tsMs|) (nearCross ticks fc asset)).map fun row =>
      ⟨fc.conditionId, fc.tsMs, asset, row.bestAsk, row.bestBid⟩

def ConvergenceNo.noEntry (cfg : ConvergenceNo) (pick : Pick) (ticks : List TickRow) :
    List NoEntry :=
  (cfg.firstCross pick ticks).filterMap (noEntryOf pick ticks)

structure ExitSignal where
  conditionId : Str
  exitTs : Int
  noAsset : Str
  exitBid : ℚ

/-- The rows that are joined to an entry. -/
def ConvergenceNo.afterEntry (cfg : ConvergenceNo) (ticks : List TickRow) (e : NoEntry) :
    List TickRow :=
  (noBook ticks).filter fun row =>
    decide (row.conditionId = some e.conditionId) && decide (row.assetId = e.noAsset) &&
      decide (e.tsMs < row.tsMs) && decide (cfg.exitThreshold ≤ row.mid)

def ConvergenceNo.exitOf (cfg : ConvergenceNo) (pick : Pick) (ticks : List TickRow)
    (e : NoEntry) : Option ExitSignal :=
  (pick TickRow.tsMs (cfg.afterEntry ticks e)).map fun row =>
    ⟨e.conditionId, row.tsMs, e.noAsset, row.bestBid⟩

def ConvergenceNo.exitSignals (cfg : ConvergenceNo) (pick : Pick) (ticks : List TickRow) :
    List ExitSignal :=
  (cfg.noEntry pick ticks).filterMap (cfg.exitOf pick ticks)

/-- An exit comes after its entry. -/
theorem ConvergenceNo.exitOf_after {cfg : ConvergenceNo} {pick : Pick}
    (picks : Picks pick) {ticks : List TickRow} {e : NoEntry} {ex : ExitSignal}
    (found : cfg.exitOf pick ticks e = some ex) : e.tsMs < ex.exitTs := by
  obtain ⟨row, picked, rfl⟩ := Option.map_eq_some_iff.mp found
  have mem := (List.mem_filter.mp ((picks _ _).1 row picked).1).2
  exact of_decide_eq_true (Bool.and_eq_true_iff.mp (Bool.and_eq_true_iff.mp mem).1).2

/-! ## Signals -/

def ConvergenceNo.buySignal (cfg : ConvergenceNo) (ne : NoEntry) : Signal where
  tsMs := ne.tsMs
  assetId := ne.noAsset
  side := .bid
  size := cfg.size
  orderType := if cfg.useLimit then .limit else .market
  limitPrice := if cfg.useLimit then some (ne.noBid + 1 / 100) else none

def ConvergenceNo.sellSignal (cfg : ConvergenceNo) (ex : ExitSignal) : Signal where
  tsMs := ex.exitTs
  assetId := ex.noAsset
  side := .ask
  size := cfg.size
  orderType := .market
  limitPrice := none

/-- `buy_signals UNION ALL sell_signals`. -/
def ConvergenceNo.unionAll (cfg : ConvergenceNo) (pick : Pick) (ticks : List TickRow) :
    List Signal :=
  (cfg.noEntry pick ticks).map cfg.buySignal ++ (cfg.exitSignals pick ticks).map cfg.sellSignal

/-- `ORDER BY ts_ms`, which may put equal times in any order. -/
def OrdersByTs (order : List Signal → List Signal) : Prop :=
  ∀ signals, (order signals).Perm signals ∧ (order signals).Pairwise fun a b => a.tsMs ≤ b.tsMs

def ConvergenceNo.generateSignals (cfg : ConvergenceNo) (pick : Pick)
    (order : List Signal → List Signal) (ticks : List TickRow) : List Signal :=
  order (cfg.unionAll pick ticks)

end Tickscope.Backtest
