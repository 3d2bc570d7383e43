import Mathlib.Data.List.Dedup
import Tickscope.Backtest.PnlFigures
import Tickscope.Lib.KeyedFold

/-!
# Assets apart

A fill reads and writes the two entries of its own asset, and what it realizes depends on these
alone: the loop of `_compute_pnl` is a fold by asset. So the order in which `simulate` puts fills
of different assets does not matter.
-/

namespace Tickscope.Backtest

open Tickscope.Lib

/-- What the dictionaries have for one asset. -/
structure Holding where
  position : Option ℚ
  avgCost : Option ℚ

namespace Holding

def none : Holding := ⟨.none, .none⟩

def pos (h : Holding) : ℚ := h.position.getD 0

def cost (h : Holding) : ℚ := h.avgCost.getD 0

end Holding

/-- A fill sets the average cost; only one that covers or closes in part leaves it alone. -/
def setsCost (pos : ℚ) (fill : Fill ℚ) : Bool :=
  match fill.side with
  | .bid => 0 ≤ pos ∨ 0 < fill.size - min fill.size |pos| ∨ pos + fill.size = 0
  | .ask => pos ≤ 0 ∨ 0 < fill.size - min fill.size pos ∨ pos - fill.size = 0

/-- One fill on the entries of its asset. -/
def Holding.book (h : Holding) (fill : Fill ℚ) : Holding where
  position := some (h.pos + fill.change)
  avgCost := if setsCost h.pos fill then some (bookedCost h.pos h.cost fill) else h.avgCost

/-- What the fill realizes. -/
def Holding.realized (h : Holding) (fill : Fill ℚ) : List ℚ := (bookedPnl h.pos h.cost fill).toList

def Account.holding (acc : Account ℚ) (asset : Str) : Holding :=
  ⟨acc.positions.lookup asset, acc.avgCosts.lookup asset⟩

/-- `_compute_pnl` by asset. -/
def holdings (fills : List (Fill ℚ)) : Str → Holding :=
  foldByKey Fill.assetId Holding.book (fun _ => .none) fills

theorem avgCosts_book (acc : Account ℚ) (fill : Fill ℚ) : (book acc fill).1.avgCosts =
    if setsCost (acc.pos fill.assetId) fill then
      put acc.avgCosts fill.assetId
        (bookedCost (acc.pos fill.assetId) (acc.avgCost fill.assetId) fill)
    else acc.avgCosts := by
  unfold book setsCost bookedCost
  cases fill.side with
  | bid =>
      unfold buy
      dsimp only
      simp only [PyFloat.abs_rat, pyMin_rat, isZero_rat]
      by_cases long : 0 ≤ acc.pos fill.assetId
      · simp [long, Account.setPos, Account.setAvgCost]
      · by_cases remains : 0 < fill.size - min fill.size |acc.pos fill.assetId|
        · simp only [long, remains]
          simp [Account.setPos, Account.setAvgCost]
        · by_cases closed : acc.pos fill.assetId + fill.size = 0
          · simp only [long, remains, closed]
            simp [Account.setPos, Account.setAvgCost]
          · simp only [long, remains, closed]
            simp [Account.setPos]
  | ask =>
      unfold sell
      dsimp only
      simp only [PyFloat.abs_rat, pyMin_rat, isZero_rat]
      by_cases short : acc.pos fill.assetId ≤ 0
      · simp [short, Account.setPos, Account.setAvgCost]
      · by_cases remains : 0 < fill.size - min fill.size (acc.pos fill.assetId)
        · simp only [short, remains]
          simp [Account.setPos, Account.setAvgCost]
        · by_cases closed : acc.pos fill.assetId - fill.size = 0
          · simp only [short, remains, closed]
            simp [Account.setPos, Account.setAvgCost]
          · simp only [short, remains, closed]
            simp [Account.setPos]

theorem holding_book (acc : Account ℚ) (fill : Fill ℚ) :
    (book acc fill).1.holding = stepByKey Fill.assetId Holding.book acc.holding fill := by
  funext asset
  rw [Account.holding, positions_book, avgCosts_book, stepByKey]
  by_cases own : asset = fill.assetId
  · subst own
    have before : (acc.holding fill.assetId).pos = acc.pos fill.assetId := rfl
    rw [Function.update_self, lookup_put, if_pos rfl, Holding.book, before]
    cases setsCost (acc.pos fill.assetId) fill with
    | true => exact congrArg (Holding.mk _) ((lookup_put ..).trans (if_pos rfl))
    | false => rfl
  · rw [Function.update_of_ne own, lookup_put, if_neg own]
    cases setsCost (acc.pos fill.assetId) fill with
    | true => exact congrArg (Holding.mk _) ((lookup_put ..).trans (if_neg own))
    | false => rfl

/-- **The loop by asset.** -/
theorem pnlAfter_byKey (fills : List (Fill ℚ)) :
    (pnlAfter fills).account.holding = holdings fills ∧
      (pnlAfter fills).roundTripPnls =
        emittedByKey Fill.assetId Holding.book Holding.realized (fun _ => .none) fills ∧
      (pnlAfter fills).cumulativePnl = (pnlAfter fills).roundTripPnls.sum := by
  induction fills using List.reverseRecOn with
  | nil => exact ⟨rfl, rfl, rfl⟩
  | append_singleton fills fill ih =>
      obtain ⟨entries, trips, total⟩ := ih
      have realized : (book (pnlAfter fills).account fill).2.toList =
          (holdings fills fill.assetId).realized fill := by
        rw [realized_book, ← entries]
        rfl
      rw [pnlAfter_concat]
      refine ⟨?_, ?_, ?_⟩
      · rw [holdings, foldByKey_concat]
        exact (holding_book ..).trans (congrArg (stepByKey _ _ · fill) entries)
      · rw [emittedByKey_concat, ← trips]
        exact congrArg _ realized
      · show _ = ((pnlAfter fills).roundTripPnls ++ (book (pnlAfter fills).account fill).2.toList).sum
        rw [cumulativePnl_step, List.sum_append, total]
        cases (book (pnlAfter fills).account fill).2 with
        | none => rfl
        | some pnl => simp

/-- The fills of one asset. -/
def fillsOf (asset : Str) (fills : List (Fill ℚ)) : List (Fill ℚ) :=
  fills.filter fun fill => fill.assetId = asset

/-- The assets that are traded. -/
def tradedAssets (fills : List (Fill ℚ)) : List Str := (fills.map Fill.assetId).dedup

theorem holding_fillsOf (asset : Str) (fills : List (Fill ℚ)) :
    (pnlAfter fills).account.holding asset =
      (pnlAfter (fillsOf asset fills)).account.holding asset := by
  rw [(pnlAfter_byKey fills).1, (pnlAfter_byKey _).1, holdings, holdings, foldByKey_apply,
    foldByKey_apply, fillsOf, List.filter_filter]
  simp only [Bool.and_self]

/-- What the fills realize, asset by asset. -/
theorem roundTripPnls_perm {assets : List Str} (nodup : assets.Nodup) (fills : List (Fill ℚ))
    (all : ∀ fill ∈ fills, fill.assetId ∈ assets) :
    (pnlAfter fills).roundTripPnls.Perm (assets.flatMap fun asset =>
      emitted Holding.book Holding.realized .none (fillsOf asset fills)) := by
  rw [(pnlAfter_byKey fills).2.1]
  exact emittedByKey_perm nodup _ all

/-- What the fills of one asset realize. -/
theorem cumulativePnl_fillsOf (asset : Str) (fills : List (Fill ℚ)) :
    (pnlAfter (fillsOf asset fills)).cumulativePnl =
      (emitted Holding.book Holding.realized .none (fillsOf asset fills)).sum := by
  have own : ∀ fill ∈ fillsOf asset fills, fill.assetId ∈ [asset] := by
    intro fill mem
    rw [List.mem_singleton]
    simpa using (List.mem_filter.mp mem).2
  have perm := roundTripPnls_perm (List.nodup_singleton asset) _ own
  rw [List.flatMap_singleton, fillsOf, fillsOf, List.filter_filter] at perm
  simp only [Bool.and_self] at perm
  rw [(pnlAfter_byKey _).2.2]
  exact perm.sum_eq

theorem totalPnl_computePnl (fills : List (Fill ℚ)) :
    totalPnl (computePnl fills).pnlCurve = (pnlAfter fills).cumulativePnl := by
  rw [totalPnl, (computePnl_eq fills).1]
  rfl

/-- **Assets do not interact.** Two lists with the same fills of each asset, in the same order,
leave the same positions and average costs and realize the same round trips, as a multiset. The
profit in the end is the sum of what the fills of each asset alone make. -/
theorem assets_apart {fills fills' : List (Fill ℚ)}
    (same : ∀ asset, fillsOf asset fills = fillsOf asset fills') :
    (∀ asset, (computePnl fills).positions.lookup asset =
        (computePnl fills').positions.lookup asset) ∧
      (∀ asset, (computePnl fills).avgCosts.lookup asset =
        (computePnl fills').avgCosts.lookup asset) ∧
      (computePnl fills).roundTripPnls.Perm (computePnl fills').roundTripPnls ∧
      totalPnl (computePnl fills).pnlCurve = totalPnl (computePnl fills').pnlCurve ∧
      totalPnl (computePnl fills).pnlCurve = ((tradedAssets fills).map fun asset =>
        totalPnl (computePnl (fillsOf asset fills)).pnlCurve).sum := by
  obtain ⟨-, positions, costs, -, trips⟩ := computePnl_eq fills
  obtain ⟨-, positions', costs', -, trips'⟩ := computePnl_eq fills'
  have holding : ∀ asset, (pnlAfter fills).account.holding asset =
      (pnlAfter fills').account.holding asset := by
    intro asset
    rw [holding_fillsOf, same, ← holding_fillsOf]
  have perm : (pnlAfter fills).roundTripPnls.Perm (pnlAfter fills').roundTripPnls := by
    -- both are sorted by the assets of both
    have nodup := List.nodup_dedup (fills.map Fill.assetId ++ fills'.map Fill.assetId)
    have one := roundTripPnls_perm nodup fills fun fill mem =>
      List.mem_dedup.mpr (List.mem_append_left _ (List.mem_map_of_mem mem))
    have two := roundTripPnls_perm nodup fills' fun fill mem =>
      List.mem_dedup.mpr (List.mem_append_right _ (List.mem_map_of_mem mem))
    simp only [same] at one
    exact one.trans two.symm
  refine ⟨fun asset => ?_, fun asset => ?_, ?_, ?_, ?_⟩
  · rw [positions, positions']
    exact congrArg Holding.position (holding asset)
  · rw [costs, costs']
    exact congrArg Holding.avgCost (holding asset)
  · rw [trips, trips']
    exact perm
  · rw [totalPnl_computePnl, totalPnl_computePnl, (pnlAfter_byKey fills).2.2,
      (pnlAfter_byKey fills').2.2]
    exact perm.sum_eq
  · have whole := roundTripPnls_perm (List.nodup_dedup (fills.map Fill.assetId)) fills
      fun fill mem => List.mem_dedup.mpr (List.mem_map_of_mem mem)
    rw [totalPnl_computePnl, (pnlAfter_byKey fills).2.2, whole.sum_eq,
      List.flatMap_def, List.sum_flatten, List.map_map, tradedAssets]
    refine congrArg List.sum (List.map_congr_left fun asset _ => ?_)
    rw [totalPnl_computePnl, cumulativePnl_fillsOf]
    rfl

/-- Two assets, interleaved in two ways; the second is sold short and bought back. -/
theorem assets_apart_twoOrders :
    let one : List (Fill ℚ) :=
      [⟨1, ascii "1", .bid, 10, 3 / 5, 1 / 10, 0⟩, ⟨1, ascii "2", .ask, 5, 2 / 5, 0, 0⟩,
        ⟨2, ascii "1", .ask, 10, 9 / 10, 0, 0⟩, ⟨2, ascii "2", .bid, 5, 1 / 5, 0, 0⟩]
    let two : List (Fill ℚ) :=
      [⟨1, ascii "2", .ask, 5, 2 / 5, 0, 0⟩, ⟨1, ascii "1", .bid, 10, 3 / 5, 1 / 10, 0⟩,
        ⟨2, ascii "2", .bid, 5, 1 / 5, 0, 0⟩, ⟨2, ascii "1", .ask, 10, 9 / 10, 0, 0⟩]
    (computePnl one).roundTripPnls.Perm (computePnl two).roundTripPnls := by
  intro one two
  refine (assets_apart fun asset => ?_).2.2.1
  by_cases first : ascii "1" = asset
  · have other : ascii "2" ≠ asset := first ▸ by decide
    simp [fillsOf, one, two, first, other]
  · simp [fillsOf, one, two, List.filter_cons, first]

end Tickscope.Backtest
