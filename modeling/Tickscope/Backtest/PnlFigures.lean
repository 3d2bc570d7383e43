import Tickscope.Backtest.Engine
import Tickscope.Lib.RunningMax

/-!
# Peak capital and drawdown

Two figures that are kept along the way: `peak_capital`, which `_compute_pnl` updates with a
running total of the capital, and `max_drawdown`, which `compute_metrics` in
`research/backtest/metrics.py` takes from the curve. The curve has a point after each fill and
none before the first.
-/

namespace Tickscope.Backtest

open Tickscope.Lib

/-! ## Peak capital -/

theorem deployed_book (acc : Account ℚ) (fill : Fill ℚ) :
    (book acc fill).1.deployed = acc.deployed -
        |acc.pos fill.assetId| * acc.avgCost fill.assetId +
      |(book acc fill).1.pos fill.assetId| * (book acc fill).1.avgCost fill.assetId := by
  rw [Account.deployed_eq, Account.deployed_eq]
  exact Account.sumKeys_write (positions_book acc fill)
    (f := fun asset => |acc.pos asset| * acc.avgCost asset)
    (g := fun asset => |(book acc fill).1.pos asset| * (book acc fill).1.avgCost asset)
    (fun other ne => by
      rw [pos_book, avgCost_book, Function.update_of_ne ne, Function.update_of_ne ne])
    (fun flat => by rw [flat, abs_zero, zero_mul])

theorem peakCapital_step (s : PnlState ℚ) (fill : Fill ℚ) :
    (s.step fill).peakCapital = max s.peakCapital (s.step fill).runningCapital := by
  show (if s.peakCapital < (s.step fill).runningCapital then _ else _) = _
  split
  · rename_i higher
    exact (max_eq_right higher.le).symm
  · rename_i lower
    exact (max_eq_left (not_lt.mp lower)).symm

/-- After each fill the running total is the capital that is deployed. -/
theorem runningCapital_pnlAfter (fills : List (Fill ℚ)) :
    (pnlAfter fills).runningCapital = (pnlAfter fills).account.deployed := by
  induction fills using List.reverseRecOn with
  | nil => rfl
  | append_singleton fills fill ih =>
      rw [pnlAfter_concat]
      show (pnlAfter fills).runningCapital -
          |(pnlAfter fills).account.pos fill.assetId| *
            (pnlAfter fills).account.avgCost fill.assetId +
          |(book (pnlAfter fills).account fill).1.pos fill.assetId| *
            (book (pnlAfter fills).account fill).1.avgCost fill.assetId =
        (book (pnlAfter fills).account fill).1.deployed
      rw [deployed_book, ih]

/-- **Peak capital.** After each fill the running total is the capital that is deployed, and what is
returned is the most that ever was. -/
theorem peak_capital (fills : List (Fill ℚ)) :
    (∀ before, before <+: fills →
        (pnlAfter before).runningCapital = (pnlAfter before).account.deployed) ∧
      IsGreatest (insert 0 { capital | ∃ before, before <+: fills ∧
        (pnlAfter before).account.deployed = capital }) (computePnl fills).peakCapital := by
  refine ⟨fun before _ => runningCapital_pnlAfter before, ?_⟩
  rw [(computePnl_eq fills).2.2.2.1]
  induction fills using List.reverseRecOn with
  | nil =>
      refine ⟨.inl rfl, ?_⟩
      rintro _ (rfl | ⟨before, initial, rfl⟩)
      · exact le_rfl
      · rw [List.prefix_nil.mp initial]
        exact le_rfl
  | append_singleton fills fill ih =>
      have now := runningCapital_pnlAfter (fills ++ [fill])
      rw [pnlAfter_concat] at now
      rw [pnlAfter_concat, peakCapital_step]
      constructor
      · rcases max_cases (pnlAfter fills).peakCapital ((pnlAfter fills).step fill).runningCapital
          with ⟨eq, -⟩ | ⟨eq, -⟩
        · rw [eq]
          refine ih.1.imp id ?_
          rintro ⟨before, initial, reached⟩
          exact ⟨before, initial.trans (List.prefix_append _ _), reached⟩
        · rw [eq]
          refine .inr ⟨_, List.prefix_refl _, ?_⟩
          rw [pnlAfter_concat, now]
      · rintro capital (zero | ⟨before, initial, reached⟩)
        · exact (ih.2 (.inl zero)).trans (le_max_left _ _)
        · rcases List.prefix_concat_iff.mp initial with rfl | initial
          · rw [pnlAfter_concat, ← now] at reached
            exact reached.symm.le.trans (le_max_right _ _)
          · exact (ih.2 (.inr ⟨before, initial, reached⟩)).trans (le_max_left _ _)

/-! ## Drawdown -/

/-- `total_pnl` of `compute_metrics`. -/
def totalPnl (pnlCurve : List ℚ) : ℚ := pnlCurve.getLast?.getD 0

/-- `max_drawdown` of `compute_metrics`, before it is rounded. -/
def maxDrawdown (pnlCurve : List ℚ) : ℚ :=
  if 0 < pnlCurve.length then (falls pnlCurve).max?.getD 0 else 0

/-- The cumulative profit after so many fills. -/
def equity (fills : List (Fill ℚ)) (count : Nat) : ℚ := (pnlAfter (fills.take count)).cumulativePnl

theorem equity_concat (fills : List (Fill ℚ)) (fill : Fill ℚ) {count : Nat}
    (le : count ≤ fills.length) : equity (fills ++ [fill]) count = equity fills count := by
  rw [equity, List.take_append_of_le_length le, equity]

theorem pnlPoints_eq (fills : List (Fill ℚ)) : (pnlAfter fills).pnlPoints =
    (List.range fills.length).map fun i => equity fills (i + 1) := by
  induction fills using List.reverseRecOn with
  | nil => rfl
  | append_singleton fills fill ih =>
      have points : (pnlAfter (fills ++ [fill])).pnlPoints =
          (pnlAfter fills).pnlPoints ++ [(pnlAfter (fills ++ [fill])).cumulativePnl] := by
        rw [pnlAfter_concat]
        rfl
      have last : equity (fills ++ [fill]) (fills.length + 1) =
          (pnlAfter (fills ++ [fill])).cumulativePnl := by
        rw [equity, List.take_of_length_le (by rw [List.length_append, List.length_singleton])]
      rw [points, ih, List.length_append, List.length_singleton, List.range_succ, List.map_append,
        List.map_singleton, last]
      refine congrArg (· ++ _) (List.map_congr_left fun i mem => ?_)
      exact (equity_concat fills fill (List.mem_range.mp mem)).symm

/-- The first fill realizes nothing: it opens a position, whatever its side and fee. -/
theorem equity_one (fills : List (Fill ℚ)) : equity fills 1 = 0 := by
  cases fills with
  | nil => rfl
  | cons fill fills =>
      show (PnlState.new.step fill).cumulativePnl = 0
      rw [cumulativePnl_step]
      show 0 + ((book .empty fill).2).getD 0 = 0
      rw [realized_book, bookedPnl, Account.pos_empty]
      cases fill.side <;> simp

theorem getElem?_pnlCurve {fills : List (Fill ℚ)} (traded : fills ≠ []) (i : Nat) :
    (computePnl fills).pnlCurve[i]? =
      if i < fills.length then some (equity fills (i + 1)) else none := by
  rw [computePnl, if_neg traded]
  dsimp only
  rw [pnlPoints_eq, List.getElem?_map]
  split
  · rename_i inside
    rw [List.getElem?_range inside]
    rfl
  · rename_i outside
    rw [List.getElem?_eq_none (by simpa using outside)]
    rfl

/-- The curve lacks the equity before any fill, and has the same right after the first. -/
theorem differences_pnlCurve (fills : List (Fill ℚ)) :
    Differences (computePnl fills).pnlCurve =
      { d | ∃ i j, i ≤ j ∧ j ≤ fills.length ∧ equity fills i - equity fills j = d } := by
  by_cases nothing : fills = []
  · subst nothing
    ext d
    constructor
    · rintro ⟨i, j, a, b, -, earlier, later, rfl⟩
      obtain ⟨-, rfl⟩ := List.getElem?_eq_some_iff.mp earlier
      obtain ⟨-, rfl⟩ := List.getElem?_eq_some_iff.mp later
      exact ⟨0, 0, le_rfl, le_rfl, by simp [computePnl]⟩
    · rintro ⟨i, j, -, -, rfl⟩
      exact ⟨0, 0, 0, 0, le_rfl, rfl, rfl, by rw [equity, equity, List.take_nil, List.take_nil]; rfl⟩
  · have positive : 0 < fills.length := List.length_pos_iff.mpr nothing
    have at_ : ∀ i ≤ fills.length, (computePnl fills).pnlCurve[i - 1]? = some (equity fills i) := by
      intro i le
      rw [getElem?_pnlCurve nothing, if_pos (by omega)]
      cases i with
      | zero => exact congrArg some (equity_one fills)
      | succ i => rfl
    ext d
    constructor
    · rintro ⟨i, j, a, b, le, earlier, later, rfl⟩
      rw [getElem?_pnlCurve nothing] at earlier later
      split at later
      · rw [if_pos (by omega)] at earlier
        cases earlier
        cases later
        exact ⟨i + 1, j + 1, by omega, by omega, rfl⟩
      · cases later
    · rintro ⟨i, j, le, inside, rfl⟩
      exact ⟨i - 1, j - 1, _, _, by omega, at_ i (by omega), at_ j inside, rfl⟩

/-- **Drawdown.** The drawdown that is reported counts from the equity before any fill: it is the
largest fall from there or from after some fill. It is 0 without fills, and at least what has been
lost in the end. -/
theorem max_drawdown (fills : List (Fill ℚ)) :
    IsGreatest { d | ∃ i j, i ≤ j ∧ j ≤ fills.length ∧ equity fills i - equity fills j = d }
        (maxDrawdown (computePnl fills).pnlCurve) ∧
      maxDrawdown (computePnl []).pnlCurve = 0 ∧
      -totalPnl (computePnl fills).pnlCurve ≤ maxDrawdown (computePnl fills).pnlCurve := by
  have last := (computePnl_eq fills).1
  have curve : (computePnl fills).pnlCurve ≠ [] := by
    intro empty
    rw [empty] at last
    cases last
  have positive : 0 < (computePnl fills).pnlCurve.length := List.length_pos_iff.mpr curve
  have greatest : IsGreatest (Differences (computePnl fills).pnlCurve)
      (maxDrawdown (computePnl fills).pnlCurve) := by
    rw [maxDrawdown, if_pos positive]
    cases largest : (falls (computePnl fills).pnlCurve).max? with
    | none => exact absurd (falls_eq_nil_iff.mp (List.max?_eq_none_iff.mp largest)) curve
    | some d => exact isGreatest_falls largest
  rw [differences_pnlCurve] at greatest
  refine ⟨greatest, by decide +kernel, ?_⟩
  have lost := greatest.2 ⟨0, fills.length, Nat.zero_le _, le_rfl, rfl⟩
  rw [equity, equity, List.take_zero, List.take_length] at lost
  rw [totalPnl, last]
  exact (zero_sub _).symm.le.trans lost

end Tickscope.Backtest
