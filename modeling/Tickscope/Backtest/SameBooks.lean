import Mathlib.Algebra.Order.Floor.Ring
import Tickscope.Backtest.Engine
import Tickscope.Backtest.Fills
import Tickscope.Bot.Executions

/-!
# The books of the bot and of the backtest

The paper gateway keeps the fee of a buy until the sale; `_compute_pnl` folds it into the average
cost, and its fees are rounded to four decimals. `same_books` compares the two over the trades that
the strategy drives: with each round trip they come apart by at most two roundings.
-/

namespace Tickscope.Backtest

open Tickscope.Lib Tickscope.Bot Tickscope.Bot.PaperGateway

/-- The fill is the trade, with its fee from `_dynamic_fee_vec`; each market has a token of which
the shares are. -/
def Records (noToken : Str → Str) : Trade → Fill ℚ → Prop
  | .buy cid _ shares fillPx _, fill =>
      fill.assetId = noToken cid ∧ fill.side = .bid ∧ fill.size = shares ∧ fill.price = fillPx ∧
        fill.fee = dynamicFee (1 / 4) 2 fillPx shares true
  | .sell cid shares fillPx, fill =>
      fill.assetId = noToken cid ∧ fill.side = .ask ∧ fill.size = shares ∧ fill.price = fillPx ∧
        fill.fee = dynamicFee (1 / 4) 2 fillPx shares false

/-- The trade completes a round trip. -/
def isSale : Trade → Bool
  | .sell .. => true
  | .buy .. => false

/-! ## Fees -/

/-- Rounding to four decimals moves a number by half a unit at most. -/
theorem abs_round4_sub_le (x : ℚ) : |round4 x - x| ≤ 1 / 20000 := by
  have floor_le : ((x * 10000).floor : ℚ) ≤ x * 10000 := Int.floor_le _
  have lt_floor : x * 10000 < (x * 10000).floor + 1 := Int.lt_floor_add_one _
  unfold round4
  dsimp only
  rw [abs_le]
  split
  · rename_i down
    have rest : x * 10000 - (x * 10000).floor ≤ 1 / 2 := by
      rcases down with lt | ⟨eq, -⟩
      · exact lt.le
      · exact eq.le
    constructor <;> linarith
  · rename_i up
    have rest : 1 / 2 ≤ x * 10000 - (x * 10000).floor := by
      by_contra lt
      exact up (.inl (not_le.mp lt))
    push_cast
    constructor <;> linarith

/-- The rounded fee of the backtest against the fee of the bot. -/
theorem feeBase_eq (price : ℚ) : feeBase (1 / 4) 2 price = dynamicFeeRate price := by
  rw [feeBase, dynamicFeeRate, feeRate, feeExponent]
  norm_num

theorem abs_fee_sub_le (price size : ℚ) :
    |dynamicFee (1 / 4) 2 price size true - size * dynamicFeeRate price * price| ≤ 1 / 20000 ∧
      |dynamicFee (1 / 4) 2 price size false - size * dynamicFeeRate price| ≤ 1 / 20000 := by
  rw [dynamicFee, dynamicFee, feeBase_eq]
  exact ⟨abs_round4_sub_le _, abs_round4_sub_le _⟩

/-! ## One trade -/

/-- The engine's account is the gateway's up to rounding: the same shares, each position at its
cost with the fee, and the same profit within the roundings of the round trips so far. -/
structure Agree (noToken : Str → Str) (gw : PaperGateway) (s : PnlState ℚ) (roundTrips : Nat) :
    Prop where
  pos : ∀ cid, s.account.pos (noToken cid) = (gw.openShares cid).getD 0
  cost : ∀ cid p, gw.positions.lookup cid = some p →
    0 < p.shares ∧ |s.account.avgCost (noToken cid) * p.shares - p.cost| ≤ 1 / 20000
  pnl : |s.cumulativePnl - gw.realisedPnl| ≤ roundTrips * (1 / 10000)

theorem agree_new (noToken : Str → Str) (initial : ℚ) :
    Agree noToken (.new initial) .new 0 where
  pos := fun _ => rfl
  cost := nofun
  pnl := by simp [PnlState.new, PaperGateway.new]

variable {noToken : Str → Str}

theorem Agree.buy (distinct : Function.Injective noToken) {gw : PaperGateway} {s : PnlState ℚ}
    {roundTrips : Nat} (agree : Agree noToken gw s roundTrips) {cid question : Str}
    {shares fillPx : ℚ} {now : Int}
    (vacant : gw.openShares cid = none) (positive : 0 < shares) {fill : Fill ℚ}
    (records : Records noToken (.buy cid question shares fillPx now) fill) :
    Agree noToken (gw.buy cid question shares fillPx now) (s.step fill) roundTrips := by
  obtain ⟨asset, side, size, price, fee⟩ := records
  have before : s.account.pos fill.assetId = 0 := by
    rw [asset, agree.pos, vacant]
    rfl
  have others : ∀ other, other ≠ cid → noToken other ≠ fill.assetId := fun other ne same =>
    ne (distinct (same.trans asset))
  refine ⟨fun other => ?_, fun other p found => ?_, ?_⟩
  · show (book s.account fill).1.pos (noToken other) = _
    rw [pos_book, before, Fill.change, side, size, zero_add, PaperGateway.openShares]
    by_cases same : other = cid
    · rw [same, ← asset, Function.update_self, PaperGateway.buy, AList.lookup_insert]
      rfl
    · rw [Function.update_of_ne (others other same), lookup_buy_of_ne same]
      exact agree.pos other
  · show _ ∧ |(book s.account fill).1.avgCost (noToken other) * p.shares - p.cost| ≤ _
    rw [avgCost_book, before]
    by_cases same : other = cid
    · rw [same, PaperGateway.buy, AList.lookup_insert] at found
      cases found
      rw [same, ← asset, Function.update_self]
      refine ⟨positive, ?_⟩
      have booked : bookedCost 0 (s.account.avgCost fill.assetId) fill * shares =
          fillPx * shares + fill.fee := by
        simp only [bookedCost, side, size, price, le_refl, if_true, zero_add, if_pos positive,
          mul_zero]
        exact div_mul_cancel₀ _ positive.ne'
      have charged := (abs_fee_sub_le fillPx shares).1
      rw [← fee] at charged
      have gap : bookedCost 0 (s.account.avgCost fill.assetId) fill * shares -
          (shares * fillPx + shares * dynamicFeeRate fillPx * fillPx) =
            fill.fee - shares * dynamicFeeRate fillPx * fillPx := by
        rw [booked]
        ring
      exact (congrArg abs gap).trans_le charged
    · rw [lookup_buy_of_ne same] at found
      rw [Function.update_of_ne (others other same)]
      exact agree.cost other p found
  · have noPnl : (book s.account fill).2 = none := by
      rw [realized_book, before, bookedPnl, side]
      simp
    rw [cumulativePnl_step, noPnl, Option.getD_none, add_zero]
    exact agree.pnl

theorem Agree.sell (distinct : Function.Injective noToken) {gw : PaperGateway} {s : PnlState ℚ}
    {roundTrips : Nat} (agree : Agree noToken gw s roundTrips) {cid : Str} {shares fillPx : ℚ}
    (isOpen : gw.openShares cid = some shares) {fill : Fill ℚ}
    (records : Records noToken (.sell cid shares fillPx) fill) :
    Agree noToken (gw.sell cid shares fillPx) (s.step fill) (roundTrips + 1) := by
  obtain ⟨asset, side, size, price, fee⟩ := records
  obtain ⟨p, found, held⟩ := Option.map_eq_some_iff.mp isOpen
  obtain ⟨positive, cost⟩ := agree.cost cid p found
  rw [held] at positive cost
  have before : s.account.pos fill.assetId = shares := by
    rw [asset, agree.pos, isOpen]
    rfl
  have others : ∀ other, other ≠ cid → noToken other ≠ fill.assetId := fun other ne same =>
    ne (distinct (same.trans asset))
  refine ⟨fun other => ?_, fun other q kept => ?_, ?_⟩
  · show (book s.account fill).1.pos (noToken other) = _
    rw [pos_book, before, Fill.change, side, size, PaperGateway.openShares]
    by_cases same : other = cid
    · rw [same, ← asset, Function.update_self, lookup_sell_self]
      exact add_neg_cancel shares
    · rw [Function.update_of_ne (others other same), lookup_sell_of_ne same]
      exact agree.pos other
  · obtain ⟨ne, kept⟩ := lookup_sell_eq_some kept
    show _ ∧ |(book s.account fill).1.avgCost (noToken other) * q.shares - q.cost| ≤ _
    rw [avgCost_book, Function.update_of_ne (others other ne)]
    exact agree.cost other q kept
  · have closed : (book s.account fill).2 =
        some (shares * (fillPx - s.account.avgCost fill.assetId) - fill.fee) := by
      rw [realized_book, before, bookedPnl, side, size, price]
      simp [positive.not_ge]
    have charged := (abs_fee_sub_le fillPx shares).2
    rw [← fee] at charged
    rw [asset] at closed
    have earned : (gw.sell cid shares fillPx).realisedPnl = gw.realisedPnl +
        (shares * fillPx - shares * p.entryPrice - shares * dynamicFeeRate fillPx - p.buyFee) := by
      rw [PaperGateway.sell, found]
    rw [cumulativePnl_step, closed, Option.getD_some, earned]
    have pnl := agree.pnl
    rw [Position.cost, held] at cost
    rw [abs_le] at pnl cost charged ⊢
    push_cast
    constructor <;> linarith

/-! ## All trades -/

theorem of_account_step {gw : PaperGateway} {t : Trade} {isOpen : Str → Option ℚ}
    (step : account.step gw.openShares t.order = some isOpen) :
    isOpen = (t.apply gw).openShares ∧
      match t with
      | .buy cid .. => gw.openShares cid = none
      | .sell cid shares _ => gw.openShares cid = some shares := by
  have run : account.run gw.openShares [t.order] = some isOpen :=
    Machine.run_cons_eq_some.mpr ⟨isOpen, step, rfl⟩
  cases t with
  | buy cid question shares fillPx now =>
      simp only [Trade.order, account] at step
      split at step
      · rename_i vacant
        have missing := Option.map_eq_none_iff.mp vacant
        have after := account_buy missing question shares fillPx now
        exact ⟨Option.some.inj (run.symm.trans after), vacant⟩
      · cases step
  | sell cid shares fillPx =>
      simp only [Trade.order, account] at step
      split at step
      · rename_i isOpen_
        obtain ⟨p, found, held⟩ := Option.map_eq_some_iff.mp isOpen_
        have whole : ∀ q, gw.positions.lookup cid = some q → q.shares = shares := by
          intro q same
          cases found.symm.trans same
          exact held
        have after := account_sell whole fillPx
        rw [sale, hasPosition, found] at after
        exact ⟨Option.some.inj (run.symm.trans after), isOpen_⟩
      · cases step

theorem Agree.run (distinct : Function.Injective noToken) {ts : List Trade} {fills : List (Fill ℚ)}
    (records : List.Forall₂ (Records noToken) ts fills) {gw : PaperGateway} {s : PnlState ℚ}
    {roundTrips : Nat} (agree : Agree noToken gw s roundTrips) (opens : ∀ t ∈ ts, t.Opens)
    {isOpen : Str → Option ℚ}
    (run : account.run gw.openShares (ts.map Trade.order) = some isOpen) :
    Agree noToken (trades gw ts) (fills.foldl PnlState.step s)
      (roundTrips + ts.countP isSale) := by
  induction records generalizing gw s roundTrips with
  | nil => exact agree
  | @cons t fill ts fills here records ih =>
      rw [List.forall_mem_cons] at opens
      obtain ⟨next, step, rest⟩ := Machine.run_cons_eq_some.mp run
      obtain ⟨rfl, slot⟩ := of_account_step step
      cases t with
      | buy cid question shares fillPx now =>
          rw [List.countP_cons_of_neg (by exact Bool.false_ne_true)]
          exact ih (agree.buy distinct slot opens.1 here) opens.2 rest
      | sell cid shares fillPx =>
          rw [List.countP_cons_of_pos rfl, ← Nat.add_assoc, Nat.add_right_comm]
          exact ih (agree.sell distinct slot here) opens.2 rest

/-- What the two report, and the roundings between them. -/
structure SameBooks (noToken : Str → Str) (gw : PaperGateway) (result : PnlResult ℚ)
    (roundTrips : Nat) : Prop where
  realised : ∃ realised, result.pnlCurve.getLast? = some realised ∧
    |realised - gw.realisedPnl| ≤ roundTrips * (1 / 10000)
  shares : ∀ cid, (result.positions.lookup (noToken cid)).getD 0 = (gw.openShares cid).getD 0

theorem sameBooks_of_driven (distinct : Function.Injective noToken) (initial : ℚ)
    {ts : List Trade} (driven : Driven ts) {fills : List (Fill ℚ)}
    (records : List.Forall₂ (Records noToken) ts fills) :
    SameBooks noToken (trades (.new initial) ts) (computePnl fills) (ts.countP isSale) := by
  obtain ⟨isOpen, run⟩ := driven.alternates
  have agree : Agree noToken (trades (.new initial) ts) (pnlAfter fills)
      (0 + ts.countP isSale) :=
    (agree_new noToken initial).run distinct records driven.opens run
  rw [Nat.zero_add] at agree
  obtain ⟨last, positions, -⟩ := computePnl_eq fills
  refine ⟨⟨_, last, agree.pnl⟩, fun cid => ?_⟩
  rw [positions]
  exact agree.pos cid

/-- **The same books.** For all trades that the strategy can drive, any number of markets
interleaved and re-entered, the profit that `_compute_pnl` realizes on the same fills is the
gateway's within 0.0001 for each round trip, and the open shares are the same. -/
theorem same_books (distinct : Function.Injective noToken) (initial : ℚ) {ts : List Trade}
    (driven : Driven ts) {fills : List (Fill ℚ)} (records : List.Forall₂ (Records noToken) ts fills) :
    SameBooks noToken (trades (.new initial) ts) (computePnl fills) (ts.countP isSale) :=
  sameBooks_of_driven distinct initial driven records

/-- Two markets, interleaved; the first is entered again. -/
def interleaved : List Trade :=
  [.buy (ascii "a") [] 10 (3 / 5) 0, .buy (ascii "b") [] 5 (1 / 3) 1, .sell (ascii "a") 10 (7 / 10),
    .buy (ascii "a") [] 7 (1 / 7) 2, .sell (ascii "b") 5 (1 / 9)]

/-- The fill of a trade, with the market for its token. -/
def fillOf : Trade → Fill ℚ
  | .buy cid _ shares fillPx now =>
      ⟨now, cid, .bid, shares, fillPx, dynamicFee (1 / 4) 2 fillPx shares true, 0⟩
  | .sell cid shares fillPx =>
      ⟨0, cid, .ask, shares, fillPx, dynamicFee (1 / 4) 2 fillPx shares false, 0⟩

theorem records_fillOf (ts : List Trade) : List.Forall₂ (Records id) ts (ts.map fillOf) := by
  induction ts with
  | nil => exact .nil
  | cons t ts ih => exact .cons (by cases t <;> exact ⟨rfl, rfl, rfl, rfl, rfl⟩) ih

theorem same_books_interleaved :
    SameBooks id (trades (.new 1000) interleaved) (computePnl (interleaved.map fillOf))
      (interleaved.countP isSale) := by
  have driven : Driven interleaved := by
    refine ⟨⟨_, rfl⟩, ?_⟩
    unfold interleaved Trade.Opens
    simp
  exact same_books Function.injective_id 1000 driven (records_fillOf interleaved)

/-- **The books of a run** of the strategy engine, on both threads. -/
theorem sameBooks_run (distinct : Function.Injective noToken) {engine : StrategyEngine}
    {initial : ℚ} {clock : Int} {labels : List Bot.Label} {s : Bot.System}
    (reached : (Bot.System.machine engine).run (.new initial clock) labels = some s)
    {fills : List (Fill ℚ)} (records : List.Forall₂ (Records noToken)
      ((Bot.System.machine engine).trace Bot.System.executions (.new initial clock) labels)
      fills) :
    SameBooks noToken s.gateway (computePnl fills)
      (((Bot.System.machine engine).trace Bot.System.executions (.new initial clock)
        labels).countP isSale) := by
  rw [Bot.System.trades_executions reached]
  exact sameBooks_of_driven distinct initial (Bot.System.driven_of_run reached) records

end Tickscope.Backtest
