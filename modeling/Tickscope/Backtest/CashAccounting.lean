import Mathlib.Algebra.Order.BigOperators.Group.List
import Mathlib.Data.List.Induction
import Tickscope.Backtest.Engine

/-!
# Cash accounting

Realized profit is the cash that has come in, plus what the open positions have cost. One fill
keeps this because what it realizes is the cash it brings plus the change in the cost of its
position (`bookedPnl_eq`), whether it opens, adds, closes or flips; the fee is in the cash and in
the cost of a position that is opened or added to. `accounted_pnlAfter` is the run. Marking the
positions then gives cash plus market value, but for the positions that
`_compute_unrealized` takes as closed.
-/

namespace Tickscope.Backtest

open Tickscope.Lib

def cashFlow (fills : List (Fill ℚ)) : ℚ := (fills.map Fill.cash).sum

/-- The size of the fills of an asset on one side. -/
def sizeOf (side : Side) (asset : Str) (fills : List (Fill ℚ)) : ℚ :=
  ((fills.filter fun fill => fill.assetId = asset ∧ fill.side = side).map Fill.size).sum

namespace Account

/-- What the open positions have cost. -/
def costBasis (acc : Account ℚ) : ℚ :=
  sumKeys acc.positions fun asset => acc.pos asset * acc.avgCost asset

/-- What the open positions are worth at the given marks. -/
def marketValue (acc : Account ℚ) (marks : Str → ℚ) : ℚ :=
  sumKeys acc.positions fun asset => acc.pos asset * marks asset

/-- The profit on the positions that `_compute_unrealized` takes as closed. -/
def dustPnl (acc : Account ℚ) (marks : Str → ℚ) : ℚ :=
  sumKeys acc.positions fun asset =>
    if |acc.pos asset| ≤ dust then acc.pos asset * (marks asset - acc.avgCost asset) else 0

end Account

theorem cashFlow_concat (fills : List (Fill ℚ)) (fill : Fill ℚ) :
    cashFlow (fills ++ [fill]) = cashFlow fills + fill.cash := by
  rw [cashFlow, List.map_append, List.sum_append]
  exact congrArg _ (add_zero _)

theorem sizeOf_concat (side : Side) (asset : Str) (fills : List (Fill ℚ)) (fill : Fill ℚ) :
    sizeOf side asset (fills ++ [fill]) = sizeOf side asset fills +
      if fill.assetId = asset ∧ fill.side = side then fill.size else 0 := by
  rw [sizeOf, List.filter_append, List.map_append, List.sum_append, List.filter_singleton]
  by_cases mine : fill.assetId = asset ∧ fill.side = side
  · rw [decide_eq_true mine, if_pos mine]
    exact congrArg _ (add_zero _)
  · rw [decide_eq_false mine, if_neg mine]
    rfl

theorem sizeOf_append (side : Side) (asset : Str) (fills fills' : List (Fill ℚ)) :
    sizeOf side asset (fills ++ fills') = sizeOf side asset fills + sizeOf side asset fills' := by
  rw [sizeOf, List.filter_append, List.map_append, List.sum_append]
  rfl

theorem sizeOf_cons (side : Side) (asset : Str) (fill : Fill ℚ) (fills : List (Fill ℚ)) :
    sizeOf side asset (fill :: fills) =
      (if fill.assetId = asset ∧ fill.side = side then fill.size else 0) +
        sizeOf side asset fills := by
  rw [sizeOf, List.filter_cons]
  by_cases mine : fill.assetId = asset ∧ fill.side = side
  · rw [if_pos (decide_eq_true mine), if_pos mine]
    rfl
  · rw [if_neg fun holds => mine (of_decide_eq_true holds), if_neg mine, zero_add]
    rfl

theorem sizeOf_perm {fills fills' : List (Fill ℚ)} (perm : fills.Perm fills') (side : Side)
    (asset : Str) : sizeOf side asset fills = sizeOf side asset fills' :=
  ((perm.filter _).map _).sum_eq

theorem sizeOf_le_of_sublist {fills fills' : List (Fill ℚ)} (sublist : fills.Sublist fills')
    {side : Side} (sizes : ∀ fill ∈ fills', fill.side = side → 0 ≤ fill.size) (asset : Str) :
    sizeOf side asset fills ≤ sizeOf side asset fills' := by
  refine ((sublist.filter _).map _).sum_le_sum fun size mem => ?_
  obtain ⟨fill, memFilter, rfl⟩ := List.mem_map.mp mem
  exact sizes fill (List.mem_filter.mp memFilter).1 (of_decide_eq_true (List.mem_filter.mp memFilter).2).2

theorem sizeOf_eq_zero {side : Side} {asset : Str} {fills : List (Fill ℚ)}
    (other : ∀ fill ∈ fills, ¬(fill.assetId = asset ∧ fill.side = side)) :
    sizeOf side asset fills = 0 := by
  rw [sizeOf, List.filter_eq_nil_iff.mpr fun fill mem mine =>
    other fill mem (of_decide_eq_true mine)]
  rfl

/-! ## One fill -/

/-- The cost of the position that a fill leaves, when it buys. -/
theorem cost_of_bid {pos avgCost : ℚ} {fill : Fill ℚ} (bid : fill.side = .bid)
    (positive : 0 < fill.size) :
    (bookedPnl pos avgCost fill).getD 0 = -(fill.price * fill.size + fill.fee) +
      ((pos + fill.size) * bookedCost pos avgCost fill - pos * avgCost) := by
  rw [bookedPnl, bookedCost, bid]
  dsimp only
  by_cases long : 0 ≤ pos
  · -- the position is opened or grows
    have grown : 0 < pos + fill.size := by linarith
    rw [if_pos long, if_pos long, if_pos grown, mul_div_cancel₀ _ grown.ne', Option.getD_none]
    ring
  · have short : pos < 0 := not_le.mp long
    rw [if_neg long, if_neg long, abs_of_neg short, Option.getD_some]
    rcases le_or_gt fill.size (-pos) with covers | flips
    · rw [min_eq_left covers, sub_self, if_neg (lt_irrefl 0)]
      by_cases closed : pos + fill.size = 0
      · rw [if_pos closed, closed, eq_neg_of_add_eq_zero_left closed]
        ring
      · rw [if_neg closed]
        ring
    · rw [min_eq_right flips.le, if_pos (by linarith)]
      ring

/-- The cost of the position that a fill leaves, when it sells. -/
theorem cost_of_ask {pos avgCost : ℚ} {fill : Fill ℚ} (ask : fill.side = .ask)
    (positive : 0 < fill.size) :
    (bookedPnl pos avgCost fill).getD 0 = (fill.price * fill.size - fill.fee) +
      ((pos - fill.size) * bookedCost pos avgCost fill - pos * avgCost) := by
  rw [bookedPnl, bookedCost, ask]
  dsimp only
  by_cases short : pos ≤ 0
  · have grown : pos - fill.size < 0 := by linarith
    rw [if_pos short, if_pos short, if_pos grown.ne, abs_of_neg grown, abs_of_nonpos short,
      Option.getD_none, ← neg_neg (pos - fill.size), neg_mul, neg_neg,
      mul_div_cancel₀ _ (neg_pos.mpr grown).ne']
    ring
  · have long : 0 < pos := not_le.mp short
    rw [if_neg short, if_neg short, Option.getD_some]
    rcases le_or_gt fill.size pos with closes | flips
    · rw [min_eq_left closes, sub_self, if_neg (lt_irrefl 0)]
      by_cases closed : pos - fill.size = 0
      · rw [if_pos closed, closed, sub_eq_zero.mp closed]
        ring
      · rw [if_neg closed]
        ring
    · rw [min_eq_right flips.le, if_pos (by linarith)]
      ring

/-- **One fill.** What it realizes is its cash and the change in the cost of its position. -/
theorem bookedPnl_eq (pos avgCost : ℚ) {fill : Fill ℚ} (positive : 0 < fill.size) :
    (bookedPnl pos avgCost fill).getD 0 = fill.cash +
      ((pos + fill.change) * bookedCost pos avgCost fill - pos * avgCost) := by
  cases side : fill.side with
  | bid =>
      rw [Fill.cash, Fill.change, side]
      exact cost_of_bid side positive
  | ask =>
      rw [Fill.cash, Fill.change, side]
      dsimp only
      rw [← sub_eq_add_neg]
      exact cost_of_ask side positive

theorem costBasis_book (acc : Account ℚ) (fill : Fill ℚ) :
    (book acc fill).1.costBasis = acc.costBasis -
        acc.pos fill.assetId * acc.avgCost fill.assetId +
      (acc.pos fill.assetId + fill.change) *
        bookedCost (acc.pos fill.assetId) (acc.avgCost fill.assetId) fill := by
  have changed := Account.sumKeys_write (positions_book acc fill)
    (f := fun asset => acc.pos asset * acc.avgCost asset)
    (g := fun asset => (book acc fill).1.pos asset * (book acc fill).1.avgCost asset)
    (fun other ne => by
      rw [pos_book, avgCost_book, Function.update_of_ne ne, Function.update_of_ne ne])
    (fun flat => by rw [flat, zero_mul])
  rw [Account.costBasis, changed, pos_book, avgCost_book, Function.update_self,
    Function.update_self]
  rfl

/-! ## Any number of fills -/

/-- What holds of the loop of `_compute_pnl` after some fills. -/
structure Accounted (fills : List (Fill ℚ)) (s : PnlState ℚ) : Prop where
  cash : s.cumulativePnl = cashFlow fills + s.account.costBasis
  pos : ∀ asset, s.account.pos asset = sizeOf .bid asset fills - sizeOf .ask asset fills
  roundTrips : s.roundTripPnls.sum = s.cumulativePnl
  last : fills ≠ [] → s.pnlPoints.getLast? = some s.cumulativePnl

theorem accounted_new : Accounted [] .new where
  cash := (add_zero 0).symm
  pos := fun _ => by simp [sizeOf, PnlState.new]
  roundTrips := rfl
  last := fun some => (some rfl).elim

theorem accounted_step {fills : List (Fill ℚ)} {s : PnlState ℚ} (accounted : Accounted fills s)
    {fill : Fill ℚ} (positive : 0 < fill.size) : Accounted (fills ++ [fill]) (s.step fill) where
  cash := by
    have pnl := bookedPnl_eq (s.account.pos fill.assetId) (s.account.avgCost fill.assetId) positive
    rw [← realized_book] at pnl
    show (s.step fill).cumulativePnl = _ + (book s.account fill).1.costBasis
    rw [cumulativePnl_step, cashFlow_concat, costBasis_book, accounted.cash, pnl]
    ring
  pos := fun asset => by
    rw [sizeOf_concat, sizeOf_concat]
    show (book s.account fill).1.pos asset = _
    rw [pos_book]
    by_cases same : asset = fill.assetId
    · subst same
      rw [Function.update_self, accounted.pos, Fill.change]
      cases fill.side <;> simp <;> ring
    · rw [Function.update_of_ne same, accounted.pos, if_neg fun both => same both.1.symm,
        if_neg fun both => same both.1.symm, add_zero, add_zero]
  roundTrips := by
    show (s.roundTripPnls ++ (book s.account fill).2.toList).sum = _
    rw [cumulativePnl_step, List.sum_append, accounted.roundTrips]
    cases (book s.account fill).2 <;> simp
  last := fun _ => List.getLast?_concat

/-- **The run.** -/
theorem accounted_pnlAfter {fills : List (Fill ℚ)} (positive : ∀ fill ∈ fills, 0 < fill.size) :
    Accounted fills (pnlAfter fills) := by
  induction fills using List.reverseRecOn with
  | nil => exact accounted_new
  | append_singleton fills fill ih =>
      rcases List.forall_mem_append.mp positive with ⟨earlier, here⟩
      rw [pnlAfter_concat]
      exact accounted_step (ih earlier) (here fill (List.mem_singleton_self fill))

/-! ## Marking -/

/-- The unrealized profit is market value less cost, without the positions taken as closed. -/
theorem computeUnrealized_eq (acc : Account ℚ) (marks : Str → ℚ) :
    computeUnrealized acc (fun asset => some (marks asset)) =
      acc.marketValue marks - acc.costBasis - acc.dustPnl marks := by
  have parts : ∀ assets : List Str,
      ((assets.filter fun asset => dust < |acc.pos asset|).map fun asset =>
          acc.pos asset * (marks asset - acc.avgCost asset)).sum =
        (assets.map fun asset => acc.pos asset * marks asset).sum -
          (assets.map fun asset => acc.pos asset * acc.avgCost asset).sum -
          (assets.map fun asset =>
            if |acc.pos asset| ≤ dust then acc.pos asset * (marks asset - acc.avgCost asset)
            else 0).sum := by
    intro assets
    induction assets with
    | nil => simp
    | cons asset assets ih =>
        rw [List.filter_cons, List.map_cons, List.map_cons, List.map_cons, List.sum_cons,
          List.sum_cons, List.sum_cons]
        by_cases isOpen : dust < |acc.pos asset|
        · rw [if_pos (decide_eq_true isOpen), if_neg (not_le.mpr isOpen), List.map_cons,
            List.sum_cons, ih]
          ring
        · rw [if_neg (by simpa using isOpen), if_pos (not_lt.mp isOpen), ih]
          ring
  exact parts acc.positions.keys

/-- What `_compute_pnl` reports of some fills, in cash. -/
structure CashAccounting (fills : List (Fill ℚ)) : Prop where
  cash : (pnlAfter fills).cumulativePnl = cashFlow fills + (pnlAfter fills).account.costBasis
  marked : ∀ marks : Str → ℚ,
    (pnlAfter fills).cumulativePnl +
        computeUnrealized (pnlAfter fills).account (fun asset => some (marks asset)) =
      cashFlow fills + (pnlAfter fills).account.marketValue marks -
        (pnlAfter fills).account.dustPnl marks
  pos : ∀ asset,
    (pnlAfter fills).account.pos asset = sizeOf .bid asset fills - sizeOf .ask asset fills
  curve : (computePnl fills).pnlCurve.getLast? = some (computePnl fills).roundTripPnls.sum

/-- **Cash accounting.** After every fill the realized profit is the cash flow plus the cost of the
positions, and with the unrealized one it is the cash flow plus their market value, but for the
positions taken as closed. -/
theorem cash_accounting {fills : List (Fill ℚ)} (positive : ∀ fill ∈ fills, 0 < fill.size)
    {before : List (Fill ℚ)} (initial : before <+: fills) : CashAccounting before := by
  have accounted := accounted_pnlAfter fun fill mem => positive fill (initial.subset mem)
  refine ⟨accounted.cash, fun marks => ?_, accounted.pos, ?_⟩
  · rw [computeUnrealized_eq, accounted.cash]
    ring
  · unfold computePnl
    split
    · rfl
    · rename_i some
      dsimp only
      rw [accounted.last some, accounted.roundTrips]

/-- A long position is opened, added to and flipped; the fill that buys back comes after. -/
theorem cash_accounting_flip :
    let fills : List (Fill ℚ) :=
      [⟨1, ascii "1", .bid, 10, 3 / 5, 1 / 10, 0⟩, ⟨2, ascii "1", .bid, 5, 1 / 2, 0, 0⟩,
        ⟨3, ascii "1", .ask, 20, 7 / 10, 1 / 5, 0⟩, ⟨4, ascii "1", .bid, 2, 4 / 5, -1 / 50, 0⟩]
    CashAccounting (fills.take 3) :=
  cash_accounting (by decide +kernel) (List.take_prefix 3 _)

/-- A position of `1e-10` is taken as closed, and its profit is not in the sum. -/
theorem dust_not_marked :
    ¬ ∀ fills : List (Fill ℚ), (∀ fill ∈ fills, 0 < fill.size) → ∀ marks : Str → ℚ,
      (pnlAfter fills).cumulativePnl +
          computeUnrealized (pnlAfter fills).account (fun asset => some (marks asset)) =
        cashFlow fills + (pnlAfter fills).account.marketValue marks := by
  intro always
  have marked := always [⟨1, ascii "1", .bid, 1 / 10 ^ 10, 1 / 2, 0, 0⟩] (by decide +kernel)
    fun _ => 3 / 5
  exact absurd marked (by decide +kernel)

end Tickscope.Backtest
