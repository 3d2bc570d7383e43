import Mathlib.Algebra.Order.Field.Rat
import Mathlib.Tactic.FieldSimp
import Mathlib.Tactic.Linarith
import Mathlib.Tactic.Ring
import Tickscope.Lib.AListSum
import Tickscope.Lib.Floats
import Tickscope.Lib.Str

/-!
# Profit and loss

`research/backtest/engine.py`: `_compute_pnl`, `_compute_unrealized` and
`_apply_capital_gate`, over any type of floats. A dictionary is a finite map that keeps the order
of its keys, and a key that is missing has the value 0.

`book` is what one fill does to the positions and the average costs. In exact arithmetic
`pos_book`, `avgCost_book` and `realized_book` say it once, as functions of the position and the
average cost that the fill finds, and later modules use only these.
-/

namespace Tickscope.Backtest

open Tickscope.Lib

inductive Side where
  | bid
  | ask
deriving DecidableEq

structure Fill (D : Type*) where
  timestampMs : Int
  assetId : Str
  side : Side
  size : D
  price : D
  fee : D
  slippage : D
deriving DecidableEq

/-- What a fill adds to the position of its asset. -/
def Fill.change (fill : Fill ℚ) : ℚ :=
  match fill.side with
  | .bid => fill.size
  | .ask => -fill.size

/-- What a fill adds to the cash. -/
def Fill.cash (fill : Fill ℚ) : ℚ :=
  match fill.side with
  | .bid => -(fill.price * fill.size + fill.fee)
  | .ask => fill.price * fill.size - fill.fee

variable {D : Type*} [Zero D] [Add D] [Sub D] [Mul D] [Div D] [Neg D] [LE D] [LT D]
  [DecidableLE D] [DecidableLT D] [OfScientific D] [PyFloat D]

/-! ## Positions and average costs -/

/-- `dict[str, float]`. -/
abbrev Amounts (D : Type*) := AList fun _ : Str => D

/-- `positions` and `avg_costs`. -/
structure Account (D : Type*) where
  positions : Amounts D
  avgCosts : Amounts D

namespace Account

def empty : Account D := ⟨∅, ∅⟩

/-- `positions.get(asset, 0.0)`. -/
def pos (acc : Account D) (asset : Str) : D := (acc.positions.lookup asset).getD 0

/-- `avg_costs.get(asset, 0.0)`. -/
def avgCost (acc : Account D) (asset : Str) : D := (acc.avgCosts.lookup asset).getD 0

def setPos (acc : Account D) (asset : Str) (amount : D) : Account D :=
  { acc with positions := put acc.positions asset amount }

def setAvgCost (acc : Account D) (asset : Str) (cost : D) : Account D :=
  { acc with avgCosts := put acc.avgCosts asset cost }

/-- The capital that is deployed: `abs(position) * avg_cost`, added up in the order in which the
assets came. -/
def deployed (acc : Account D) : D :=
  PyFloat.sum (acc.positions.keys.reverse.map fun asset =>
    PyFloat.abs (acc.pos asset) * acc.avgCost asset)

end Account

/-- A fill that buys, and the profit it realizes. -/
def buy (acc : Account D) (fill : Fill D) : Account D × Option D :=
  let asset := fill.assetId
  let pos := acc.pos asset
  let avgCost := acc.avgCost asset
  let qty := fill.size
  let cost := fill.price * qty + fill.fee
  if 0 ≤ pos then
    let totalCost := avgCost * pos + cost
    let newPos := pos + qty
    ((acc.setAvgCost asset (if 0 < newPos then totalCost / newPos else 0)).setPos asset newPos, none)
  else
    let coverQty := pyMin qty (PyFloat.abs pos)
    let pnl := coverQty * (avgCost - fill.price) - fill.fee
    let remaining := qty - coverQty
    if 0 < remaining then
      ((acc.setPos asset remaining).setAvgCost asset fill.price, some pnl)
    else
      let acc := acc.setPos asset (pos + qty)
      (if IsZero (pos + qty) then acc.setAvgCost asset 0 else acc, some pnl)

/-- A fill that sells, and the profit it realizes. -/
def sell (acc : Account D) (fill : Fill D) : Account D × Option D :=
  let asset := fill.assetId
  let pos := acc.pos asset
  let avgCost := acc.avgCost asset
  let qty := fill.size
  if pos ≤ 0 then
    let totalCost := avgCost * PyFloat.abs pos + fill.price * qty - fill.fee
    let newPos := pos - qty
    let newCost := if ¬IsZero newPos then totalCost / PyFloat.abs newPos else 0
    ((acc.setAvgCost asset newCost).setPos asset newPos, none)
  else
    let closeQty := pyMin qty pos
    let pnl := closeQty * (fill.price - avgCost) - fill.fee
    let remaining := qty - closeQty
    if 0 < remaining then
      ((acc.setPos asset (-remaining)).setAvgCost asset fill.price, some pnl)
    else
      let acc := acc.setPos asset (pos - qty)
      (if IsZero (pos - qty) then acc.setAvgCost asset 0 else acc, some pnl)

def book (acc : Account D) (fill : Fill D) : Account D × Option D :=
  match fill.side with
  | .bid => buy acc fill
  | .ask => sell acc fill

/-! ## `_compute_pnl` -/

structure PnlState (D : Type*) where
  account : Account D
  cumulativePnl : D
  pnlPoints : List D
  peakCapital : D
  runningCapital : D
  roundTripPnls : List D

def PnlState.new : PnlState D := ⟨.empty, 0, [], 0, 0, []⟩

/-- The body of the loop. -/
def PnlState.step (s : PnlState D) (fill : Fill D) : PnlState D :=
  let asset := fill.assetId
  let before := s.runningCapital - PyFloat.abs (s.account.pos asset) * s.account.avgCost asset
  let (account, pnl) := book s.account fill
  let cumulativePnl := pnl.elim s.cumulativePnl (s.cumulativePnl + ·)
  let runningCapital := before + PyFloat.abs (account.pos asset) * account.avgCost asset
  { account := account
    cumulativePnl := cumulativePnl
    pnlPoints := s.pnlPoints ++ [cumulativePnl]
    peakCapital := if s.peakCapital < runningCapital then runningCapital else s.peakCapital
    runningCapital := runningCapital
    roundTripPnls := s.roundTripPnls ++ pnl.toList }

/-- The state of the loop after some fills. -/
def pnlAfter (fills : List (Fill D)) : PnlState D := fills.foldl PnlState.step .new

/-- What `_compute_pnl` returns. -/
structure PnlResult (D : Type*) where
  pnlCurve : List D
  positions : Amounts D
  avgCosts : Amounts D
  peakCapital : D
  roundTripPnls : List D

def computePnl (fills : List (Fill D)) : PnlResult D :=
  if fills = [] then ⟨[0], ∅, ∅, 0, []⟩
  else
    let s := pnlAfter fills
    ⟨s.pnlPoints, s.account.positions, s.account.avgCosts, s.peakCapital, s.roundTripPnls⟩

/-! ## `_compute_unrealized` -/

/-- Below this a position counts as closed. -/
def dust : D := 1e-9

/-- The profit on open positions at the given mid prices; an asset may have none. -/
def computeUnrealized (acc : Account ℚ) (mids : Str → Option ℚ) : ℚ :=
  let openAssets := acc.positions.keys.filter fun asset => dust < |acc.pos asset|
  (openAssets.map fun asset =>
    ((mids asset).map fun mid => acc.pos asset * (mid - acc.avgCost asset)).getD 0).sum

/-! ## `_apply_capital_gate` -/

/-- From here on `max_capital` means no limit. -/
def unlimited : D := 1e9

/-- The gate's own positions and average costs, and the fills it has kept. -/
structure Gate (D : Type*) where
  account : Account D
  kept : List (Fill D)

def Gate.new : Gate D := ⟨.empty, []⟩

/-- The gate lets the fill through. -/
def Gate.Affords (maxCapital : D) (g : Gate D) (fill : Fill D) : Prop :=
  fill.side = .bid → ¬maxCapital < g.account.deployed + fill.size * fill.price

instance (maxCapital : D) (g : Gate D) (fill : Fill D) : Decidable (g.Affords maxCapital fill) :=
  inferInstanceAs (Decidable (_ → _))

/-- How the gate tracks a fill that it has kept. -/
def track (acc : Account D) (fill : Fill D) : Account D :=
  let asset := fill.assetId
  let pos := acc.pos asset
  let cost := acc.avgCost asset
  match fill.side with
  | .bid =>
      let oldValue := cost * pos + fill.price * fill.size
      let newPos := pos + fill.size
      (acc.setAvgCost asset (if 0 < newPos then oldValue / newPos else 0)).setPos asset newPos
  | .ask =>
      let newPos := pos - fill.size
      let acc := acc.setPos asset newPos
      if PyFloat.abs newPos < dust then acc.setAvgCost asset 0 else acc

/-- The body of the loop. -/
def Gate.step (maxCapital : D) (g : Gate D) (fill : Fill D) : Gate D :=
  if g.Affords maxCapital fill then ⟨track g.account fill, g.kept ++ [fill]⟩ else g

def applyCapitalGate (fills : List (Fill D)) (maxCapital : D) : List (Fill D) :=
  if unlimited ≤ maxCapital then fills
  else (fills.foldl (Gate.step maxCapital) .new).kept

/-! ## One write -/

namespace Account

variable (acc : Account ℚ) (asset : Str) (value : ℚ)

@[simp] theorem pos_empty : (empty : Account ℚ).pos asset = 0 := rfl

@[simp] theorem avgCost_empty : (empty : Account ℚ).avgCost asset = 0 := rfl

theorem getD_lookup_put (m : Amounts ℚ) :
    (fun other => ((put m asset value).lookup other).getD 0) =
      Function.update (fun other => (m.lookup other).getD 0) asset value := by
  funext other
  by_cases same : other = asset
  · rw [lookup_put, if_pos same, same, Function.update_self]
    rfl
  · rw [lookup_put, if_neg same, Function.update_of_ne same]

@[simp] theorem pos_setPos : (acc.setPos asset value).pos = Function.update acc.pos asset value :=
  getD_lookup_put asset value acc.positions

@[simp] theorem avgCost_setPos : (acc.setPos asset value).avgCost = acc.avgCost := rfl

@[simp] theorem pos_setAvgCost : (acc.setAvgCost asset value).pos = acc.pos := rfl

@[simp] theorem avgCost_setAvgCost :
    (acc.setAvgCost asset value).avgCost = Function.update acc.avgCost asset value :=
  getD_lookup_put asset value acc.avgCosts

@[simp] theorem positions_setPos :
    (acc.setPos asset value).positions = put acc.positions asset value := rfl

@[simp] theorem positions_setAvgCost :
    (acc.setAvgCost asset value).positions = acc.positions := rfl

variable {acc asset}

theorem pos_of_not_mem (absent : asset ∉ acc.positions) : acc.pos asset = 0 := by
  rw [pos, AList.lookup_eq_none.mpr absent]
  rfl

/-- A sum over the assets changes by the term of the asset that is written. -/
theorem sumKeys_write {acc' : Account ℚ} {amount : ℚ}
    (written : acc'.positions = put acc.positions asset amount) {f g : Str → ℚ}
    (others : ∀ other, other ≠ asset → g other = f other) (none : acc.pos asset = 0 → f asset = 0) :
    sumKeys acc'.positions g = sumKeys acc.positions f - f asset + g asset := by
  rw [written]
  exact sumKeys_put others (fun absent => none (pos_of_not_mem absent)) amount

/-- In exact arithmetic the order of the assets does not matter. -/
theorem deployed_eq (acc : Account ℚ) :
    acc.deployed = sumKeys acc.positions fun asset => |acc.pos asset| * acc.avgCost asset :=
  ((acc.positions.keys.reverse_perm).map _).sum_eq

end Account

/-! ## One fill -/

/-- The average cost that a fill leaves, from the position and the average cost that it finds. -/
def bookedCost (pos avgCost : ℚ) (fill : Fill ℚ) : ℚ :=
  match fill.side with
  | .bid =>
      if 0 ≤ pos then
        if 0 < pos + fill.size then
          (avgCost * pos + (fill.price * fill.size + fill.fee)) / (pos + fill.size)
        else 0
      else if 0 < fill.size - min fill.size |pos| then fill.price
      else if pos + fill.size = 0 then 0 else avgCost
  | .ask =>
      if pos ≤ 0 then
        if pos - fill.size ≠ 0 then
          (avgCost * |pos| + fill.price * fill.size - fill.fee) / |pos - fill.size|
        else 0
      else if 0 < fill.size - min fill.size pos then fill.price
      else if pos - fill.size = 0 then 0 else avgCost

/-- The profit that a fill realizes, if it closes anything. -/
def bookedPnl (pos avgCost : ℚ) (fill : Fill ℚ) : Option ℚ :=
  match fill.side with
  | .bid =>
      if 0 ≤ pos then none
      else some (min fill.size |pos| * (avgCost - fill.price) - fill.fee)
  | .ask =>
      if pos ≤ 0 then none
      else some (min fill.size pos * (fill.price - avgCost) - fill.fee)

theorem remaining_of_min {a b : ℚ} (remains : 0 < a - min a b) : a - min a b = a - b := by
  rcases le_total a b with le | le
  · rw [min_eq_left le] at remains
    linarith
  · rw [min_eq_right le]

/-- **One fill.** It writes the position of its asset, and at most the average cost of its asset. -/
theorem book_spec (acc : Account ℚ) (fill : Fill ℚ) :
    (book acc fill).1.positions =
        put acc.positions fill.assetId (acc.pos fill.assetId + fill.change) ∧
      (book acc fill).1.avgCost = Function.update acc.avgCost fill.assetId
        (bookedCost (acc.pos fill.assetId) (acc.avgCost fill.assetId) fill) ∧
      (book acc fill).2 = bookedPnl (acc.pos fill.assetId) (acc.avgCost fill.assetId) fill := by
  unfold book Fill.change bookedCost bookedPnl
  cases fill.side with
  | bid =>
      unfold buy
      dsimp only
      simp only [PyFloat.abs_rat, pyMin_rat, isZero_rat]
      by_cases long : 0 ≤ acc.pos fill.assetId
      · simp only [long, if_true]
        exact ⟨rfl, by simp, True.intro⟩
      · simp only [long, if_false]
        by_cases remains : 0 < fill.size - min fill.size |acc.pos fill.assetId|
        · simp only [remains, if_true]
          refine ⟨?_, by simp, True.intro⟩
          rw [Account.positions_setAvgCost, Account.positions_setPos, remaining_of_min remains,
            abs_of_neg (not_le.mp long)]
          ring_nf
        · simp only [remains, if_false]
          by_cases closed : acc.pos fill.assetId + fill.size = 0 <;> simp [closed]
  | ask =>
      unfold sell
      dsimp only
      simp only [PyFloat.abs_rat, pyMin_rat, isZero_rat]
      by_cases short : acc.pos fill.assetId ≤ 0
      · simp only [short, if_true]
        exact ⟨by simp [sub_eq_add_neg], by simp, True.intro⟩
      · simp only [short, if_false]
        by_cases remains : 0 < fill.size - min fill.size (acc.pos fill.assetId)
        · simp only [remains, if_true]
          refine ⟨?_, by simp, True.intro⟩
          rw [Account.positions_setAvgCost, Account.positions_setPos, remaining_of_min remains]
          ring_nf
        · simp only [remains, if_false]
          by_cases closed : acc.pos fill.assetId - fill.size = 0 <;>
            simp [closed, ← sub_eq_add_neg]

theorem positions_book (acc : Account ℚ) (fill : Fill ℚ) : (book acc fill).1.positions =
    put acc.positions fill.assetId (acc.pos fill.assetId + fill.change) :=
  (book_spec acc fill).1

theorem pos_book (acc : Account ℚ) (fill : Fill ℚ) : (book acc fill).1.pos =
    Function.update acc.pos fill.assetId (acc.pos fill.assetId + fill.change) := by
  have written := positions_book acc fill
  rw [← Account.pos_setPos]
  funext asset
  rw [Account.pos, written]
  rfl

theorem avgCost_book (acc : Account ℚ) (fill : Fill ℚ) : (book acc fill).1.avgCost =
    Function.update acc.avgCost fill.assetId
      (bookedCost (acc.pos fill.assetId) (acc.avgCost fill.assetId) fill) :=
  (book_spec acc fill).2.1

theorem realized_book (acc : Account ℚ) (fill : Fill ℚ) : (book acc fill).2 =
    bookedPnl (acc.pos fill.assetId) (acc.avgCost fill.assetId) fill :=
  (book_spec acc fill).2.2

theorem cumulativePnl_step (s : PnlState ℚ) (fill : Fill ℚ) :
    (s.step fill).cumulativePnl = s.cumulativePnl + ((book s.account fill).2).getD 0 := by
  show (book s.account fill).2.elim s.cumulativePnl (s.cumulativePnl + ·) = _
  cases (book s.account fill).2 with
  | none => exact (add_zero _).symm
  | some pnl => rfl

theorem pnlAfter_concat (fills : List (Fill ℚ)) (fill : Fill ℚ) :
    pnlAfter (fills ++ [fill]) = (pnlAfter fills).step fill := List.foldl_concat ..

/-- What `_compute_pnl` returns, in terms of its loop. -/
theorem computePnl_eq (fills : List (Fill ℚ)) :
    (computePnl fills).pnlCurve.getLast? = some (pnlAfter fills).cumulativePnl ∧
      (computePnl fills).positions = (pnlAfter fills).account.positions ∧
      (computePnl fills).avgCosts = (pnlAfter fills).account.avgCosts ∧
      (computePnl fills).peakCapital = (pnlAfter fills).peakCapital ∧
      (computePnl fills).roundTripPnls = (pnlAfter fills).roundTripPnls := by
  unfold computePnl
  split
  · rename_i nothing
    subst nothing
    exact ⟨rfl, rfl, rfl, rfl, rfl⟩
  · rename_i positive
    refine ⟨?_, rfl, rfl, rfl, rfl⟩
    obtain ⟨before, fill, rfl⟩ := (List.eq_nil_or_concat' fills).resolve_left positive
    rw [pnlAfter_concat]
    exact List.getLast?_concat

end Tickscope.Backtest
