import Mathlib.Algebra.Order.Field.Rat
import Mathlib.Tactic.LinearCombination
import Mathlib.Tactic.Ring
import Tickscope.Bot.BookState
import Tickscope.Lib.AListSum

/-!
# The paper gateway

`src/bot/OrderGateway.cpp`: the account that `PaperGateway` keeps under its mutex.
`Balanced` is its bookkeeping law. A buy keeps it when it opens a position, a sale
when it is made for the share count of the position that it closes.
-/

namespace Tickscope.Bot

open Tickscope.Lib

/-! ## Fees -/

/-- `FEE_RATE`. -/
def feeRate : ℚ := 25 / 100

/-- `FEE_EXPONENT`. -/
def feeExponent : Nat := 2

def dynamicFeeRate (price : ℚ) : ℚ := feeRate * (price * (1 - price)) ^ feeExponent

/-! ## The account -/

structure Position where
  conditionId : Str
  question : Str
  shares : ℚ
  entryPrice : ℚ
  buyFee : ℚ
  entryTimeMs : Int

/-- What an open position has cost. -/
def Position.cost (pos : Position) : ℚ := pos.shares * pos.entryPrice + pos.buyFee

structure PaperGateway where
  capital : ℚ
  realisedPnl : ℚ
  totalFees : ℚ
  positions : AList fun _ : Str => Position

namespace PaperGateway

def new (initialCapital : ℚ) : PaperGateway := ⟨initialCapital, 0, 0, ∅⟩

def buy (gw : PaperGateway) (cid question : Str) (shares fillPrice : ℚ) (nowMs : Int) :
    PaperGateway :=
  let cost := shares * fillPrice
  let buyFee := shares * dynamicFeeRate fillPrice * fillPrice
  { capital := gw.capital - (cost + buyFee)
    realisedPnl := gw.realisedPnl
    totalFees := gw.totalFees + buyFee
    positions := gw.positions.insert cid ⟨cid, question, shares, fillPrice, buyFee, nowMs⟩ }

/-- `sell`, which does nothing without an open position. -/
def sell (gw : PaperGateway) (cid : Str) (shares fillPrice : ℚ) : PaperGateway :=
  match gw.positions.lookup cid with
  | none => gw
  | some pos =>
      let proceeds := shares * fillPrice
      let cost := shares * pos.entryPrice
      let sellFee := shares * dynamicFeeRate fillPrice
      { capital := gw.capital + (proceeds - sellFee)
        realisedPnl := gw.realisedPnl + (proceeds - cost - sellFee - pos.buyFee)
        totalFees := gw.totalFees + sellFee
        positions := gw.positions.erase cid }

def hasPosition (gw : PaperGateway) (cid : Str) : Bool := (gw.positions.lookup cid).isSome

/-! ## Bookkeeping -/

/-- What is held in cash and in positions at cost is what was put in and what was earned. -/
def Balanced (initial : ℚ) (gw : PaperGateway) : Prop :=
  gw.capital + total Position.cost gw.positions = initial + gw.realisedPnl

theorem new_balanced (initial : ℚ) : (new initial).Balanced initial := by
  simp [Balanced, new]

theorem Balanced.buy {initial : ℚ} {gw : PaperGateway} (balanced : gw.Balanced initial)
    {cid : Str} (vacant : gw.positions.lookup cid = none) (question : Str)
    (shares fillPrice : ℚ) (nowMs : Int) :
    (gw.buy cid question shares fillPrice nowMs).Balanced initial := by
  unfold Balanced at balanced ⊢
  rw [PaperGateway.buy, total_insert vacant, Position.cost, ← balanced]
  ring

/-- A sale of exactly the open shares, or of a position that is closed already. -/
theorem Balanced.sell {initial : ℚ} {gw : PaperGateway} (balanced : gw.Balanced initial)
    {cid : Str} {shares : ℚ}
    (whole : ∀ pos, gw.positions.lookup cid = some pos → pos.shares = shares) (fillPrice : ℚ) :
    (gw.sell cid shares fillPrice).Balanced initial := by
  unfold Balanced at balanced ⊢
  unfold PaperGateway.sell
  split
  · exact balanced
  · rename_i pos found
    have erased := total_erase found Position.cost
    rw [Position.cost, whole pos found] at erased
    rw [← erased] at balanced
    dsimp only
    linear_combination balanced

/-! ## Who is open after an order -/

theorem lookup_buy_of_ne {cid other : Str} (ne : other ≠ cid) (gw : PaperGateway)
    (question : Str) (shares fillPrice : ℚ) (nowMs : Int) :
    (gw.buy cid question shares fillPrice nowMs).positions.lookup other =
      gw.positions.lookup other :=
  AList.lookup_insert_ne ne

theorem lookup_sell_self (gw : PaperGateway) (cid : Str) (shares fillPrice : ℚ) :
    (gw.sell cid shares fillPrice).positions.lookup cid = none := by
  unfold sell
  split
  · assumption
  · exact AList.lookup_erase ..

theorem lookup_sell_of_ne {cid other : Str} (ne : other ≠ cid) (gw : PaperGateway)
    (shares fillPrice : ℚ) :
    (gw.sell cid shares fillPrice).positions.lookup other = gw.positions.lookup other := by
  unfold sell
  split
  · rfl
  · exact AList.lookup_erase_ne ne

/-- A sale only closes. -/
theorem lookup_sell_eq_none {gw : PaperGateway} {other : Str}
    (vacant : gw.positions.lookup other = none) (cid : Str) (shares fillPrice : ℚ) :
    (gw.sell cid shares fillPrice).positions.lookup other = none := by
  by_cases same : other = cid
  · rw [same, lookup_sell_self]
  · rw [lookup_sell_of_ne same, vacant]

theorem lookup_sell_eq_some {gw : PaperGateway} {cid other : Str} {shares fillPrice : ℚ}
    {pos : Position}
    (found : (gw.sell cid shares fillPrice).positions.lookup other = some pos) :
    other ≠ cid ∧ gw.positions.lookup other = some pos := by
  by_cases same : other = cid
  · rw [same, lookup_sell_self] at found
    cases found
  · rw [lookup_sell_of_ne same] at found
    exact ⟨same, found⟩

end PaperGateway

end Tickscope.Bot
