import Tickscope.Bot.NeverOverdrawn

/-!
# The status line

The status block of `src/bot/main.cpp` takes its figures with five calls of the gateway, each of
them atomic, while the WebSocket thread buys and sells. An interleaving is what that thread does
before each of the calls; `trades_of_run` says that what it does to the gateway is a list of
trades. `status_describes_one_state` says when there is one state that all figures are taken from.
-/

namespace Tickscope.Bot

open Tickscope.Lib

/-! ## Trades -/

/-- A call of the gateway that changes it. -/
inductive Trade where
  | buy (cid question : Str) (shares fillPx : ℚ) (now : Int)
  | sell (cid : Str) (shares fillPx : ℚ)

namespace Trade

def apply (gw : PaperGateway) : Trade → PaperGateway
  | buy cid question shares fillPx now => gw.buy cid question shares fillPx now
  | sell cid shares fillPx => gw.sell cid shares fillPx

/-- What the trade pays when it takes effect. -/
def fee : Trade → ℚ
  | buy _ _ shares fillPx _ => shares * dynamicFeeRate fillPx * fillPx
  | sell _ shares fillPx => shares * dynamicFeeRate fillPx

/-- A trade that takes effect adds its fee. -/
theorem apply_cases (gw : PaperGateway) (t : Trade) :
    t.apply gw = gw ∨ (t.apply gw).totalFees = gw.totalFees + t.fee := by
  cases t with
  | buy => exact .inr rfl
  | sell cid shares fillPx =>
      have sold : gw.sell cid shares fillPx = gw ∨
          (gw.sell cid shares fillPx).totalFees =
            gw.totalFees + shares * dynamicFeeRate fillPx := by
        unfold PaperGateway.sell
        split
        · exact .inl rfl
        · exact .inr rfl
      exact sold

end Trade

/-- The gateway after some trades. -/
def trades (gw : PaperGateway) (ts : List Trade) : PaperGateway :=
  ts.foldl (fun gw t => t.apply gw) gw

theorem trades_append (gw : PaperGateway) (ts us : List Trade) :
    trades gw (ts ++ us) = trades (trades gw ts) us := List.foldl_append

/-- Trades with fees leave their trace in the sum of the fees. -/
theorem trades_eq_of_fees {gw : PaperGateway} {ts : List Trade} (charged : ∀ t ∈ ts, 0 < t.fee)
    (same : (trades gw ts).totalFees = gw.totalFees) : trades gw ts = gw := by
  refine Machine.foldl_eq_of_measure (fun gw t mem => ?_) same
  rcases t.apply_cases gw with eq | fees
  · exact .inl eq
  · refine .inr ?_
    rw [fees]
    exact lt_add_of_pos_right _ (charged t mem)

/-! ## What the WebSocket thread does -/

namespace System

theorem trades_of_stepOnTick {engine : StrategyEngine} {s s' : System} {now : Int}
    (step : s.stepOnTick engine now = some s') : ∃ ts, s'.gateway = trades s.gateway ts := by
  cases ticks_of_stepOnTick step with
  | looks => exact ⟨[], rfl⟩
  | clock => exact ⟨[], rfl⟩
  | @buy cid question shares fillPx => exact ⟨[.buy cid question shares fillPx now], rfl⟩
  | @sell cid shares fillPx => exact ⟨[.sell cid shares fillPx], rfl⟩

/-- A label of the WebSocket thread. -/
def OfFeed : Label → Prop
  | .update .. => True
  | .ws _ => True
  | _ => False

/-- While the main thread is in the status block, the gateway changes by trades only. -/
theorem trades_of_run {engine : StrategyEngine} {s t : System} {ls : List Label}
    (feed : ∀ l ∈ ls, OfFeed l) (reached : (machine engine).run s ls = some t) :
    ∃ ts, t.gateway = trades s.gateway ts := by
  induction ls generalizing s with
  | nil =>
      cases reached
      exact ⟨[], rfl⟩
  | cons l ls ih =>
      rw [List.forall_mem_cons] at feed
      obtain ⟨s', step, rest⟩ := Machine.run_cons_eq_some.mp reached
      have here : ∃ ts, s'.gateway = trades s.gateway ts := by
        cases l with
        | update tokenId bid ask =>
            simp only [machine, System.step] at step
            split at step <;> cases step
            exact ⟨[], rfl⟩
        | ws now => exact trades_of_stepOnTick step
        | addMarket => exact feed.1.elim
        | sweep => exact feed.1.elim
        | main => exact feed.1.elim
      obtain ⟨ts, first⟩ := here
      obtain ⟨us, later⟩ := ih feed.2 rest
      exact ⟨ts ++ us, by rw [later, first, trades_append]⟩

end System

/-! ## The status block -/

/-- The trades of the WebSocket thread, by where they land in the block. -/
structure Interleaving where
  beforeSize : List Trade
  beforeCash : List Trade
  beforePnl : List Trade
  beforeFees : List Trade
  beforePositions : List Trade
  afterwards : List Trade

/-- What is reported, and the copy of the positions that is marked to market. -/
structure Status where
  openPositions : Nat
  cash : ℚ
  realisedPnl : ℚ
  fees : ℚ
  positions : AList fun _ : Str => Position
  equity : ℚ

/-- What an open position counts: the bid, or the cost basis without one. -/
def markOf (pos : Position) : Option MarketBook → ℚ
  | some bk => if 0 < bk.noBid then pos.shares * bk.noBid else pos.shares * pos.entryPrice
  | none => pos.shares * pos.entryPrice

/-- `mtm`; `seen` is what `get_book` gives when it comes to a market. -/
def markToMarket (seen : Str → Option MarketBook) (positions : AList fun _ : Str => Position) : ℚ :=
  (positions.entries.map fun entry => markOf entry.2 (seen entry.1)).sum

namespace Interleaving

variable (start : PaperGateway) (i : Interleaving)

/-- The gateway when `positions().size()` is called. -/
def atSize : PaperGateway := trades start i.beforeSize

/-- The gateway when `available_capital()` is called. -/
def atCash : PaperGateway := trades (i.atSize start) i.beforeCash

/-- The gateway when `realised_pnl()` is called. -/
def atPnl : PaperGateway := trades (i.atCash start) i.beforePnl

/-- The gateway when `total_fees()` is called. -/
def atFees : PaperGateway := trades (i.atPnl start) i.beforeFees

/-- The gateway when `positions()` is called for the second time. -/
def atPositions : PaperGateway := trades (i.atFees start) i.beforePositions

/-- The status block. -/
def status (seen : Str → Option MarketBook) : Status :=
  let nPos := (i.atSize start).positions.entries.length
  let cash := (i.atCash start).capital
  let rpnl := (i.atPnl start).realisedPnl
  let fees := (i.atFees start).totalFees
  let positions := (i.atPositions start).positions
  let mtm := markToMarket seen positions
  { openPositions := nPos
    cash := cash
    realisedPnl := rpnl
    fees := fees
    positions := positions
    equity := cash + mtm }

/-- All trades during the block, in order. -/
def all : List Trade :=
  i.beforeSize ++ i.beforeCash ++ i.beforePnl ++ i.beforeFees ++ i.beforePositions ++ i.afterwards

/-- The block passes this state of the gateway. -/
def Passes (gw : PaperGateway) : Prop := ∃ ts, ts <+: i.all ∧ gw = trades start ts

/-- What the trades between the calls do to the figures cancels out: the number of positions from
the first call to the fourth, the cash from the second, the result from the third, and the
positions from the fourth to the fifth. -/
structure CancelOut : Prop where
  size : (i.atFees start).positions.entries.length = (i.atSize start).positions.entries.length
  cash : (i.atFees start).capital = (i.atCash start).capital
  pnl : (i.atFees start).realisedPnl = (i.atPnl start).realisedPnl
  positions : (i.atPositions start).positions = (i.atFees start).positions

end Interleaving

/-- All figures are taken from this state. -/
structure Status.Describes (st : Status) (seen : Str → Option MarketBook) (gw : PaperGateway) :
    Prop where
  openPositions : st.openPositions = gw.positions.entries.length
  cash : st.cash = gw.capital
  realisedPnl : st.realisedPnl = gw.realisedPnl
  fees : st.fees = gw.totalFees
  positions : st.positions = gw.positions
  equity : st.equity = gw.capital + markToMarket seen gw.positions

namespace Interleaving

variable (start : PaperGateway) (i : Interleaving)

theorem atFees_eq : i.atFees start =
    trades start (i.beforeSize ++ i.beforeCash ++ i.beforePnl ++ i.beforeFees) := by
  rw [trades_append, trades_append, trades_append]
  rfl

theorem passes_atFees : i.Passes start (i.atFees start) := by
  refine ⟨_, ?_, i.atFees_eq start⟩
  rw [all, List.append_assoc _ i.beforePositions]
  exact List.prefix_append _ _

/-- With fees on every trade, only one state of the block has a given sum of fees. -/
theorem eq_of_fees (charged : ∀ t ∈ i.all, 0 < t.fee) {gw gw' : PaperGateway}
    (passes : i.Passes start gw) (passes' : i.Passes start gw')
    (same : gw.totalFees = gw'.totalFees) : gw = gw' := by
  rcases passes with ⟨ts, before, rfl⟩
  rcases passes' with ⟨us, before', rfl⟩
  rcases List.prefix_or_prefix_of_prefix before before' with ⟨more, rfl⟩ | ⟨more, rfl⟩
  · rw [trades_append] at same ⊢
    refine (trades_eq_of_fees (fun t mem => charged t ?_) same.symm).symm
    exact before'.subset (List.mem_append_right _ mem)
  · rw [trades_append] at same ⊢
    refine trades_eq_of_fees (fun t mem => charged t ?_) same
    exact before.subset (List.mem_append_right _ mem)

/-- **The status line.** If what the trades between the calls do cancels out, there is a state of
the gateway during the block that all figures are taken from; and if every trade pays a fee, there
is one only then. -/
theorem status_describes_one_state (seen : Str → Option MarketBook) :
    (i.CancelOut start →
        ∃ gw, i.Passes start gw ∧ (i.status start seen).Describes seen gw) ∧
      ((∀ t ∈ i.all, 0 < t.fee) →
        (∃ gw, i.Passes start gw ∧ (i.status start seen).Describes seen gw) →
          i.CancelOut start) := by
  constructor
  · intro cancel
    refine ⟨i.atFees start, i.passes_atFees start, ?_⟩
    refine ⟨cancel.size.symm, cancel.cash.symm, cancel.pnl.symm, rfl, cancel.positions, ?_⟩
    rw [status, cancel.positions, cancel.cash]
  · rintro charged ⟨gw, passes, describes⟩
    have same := i.eq_of_fees start charged passes (i.passes_atFees start) describes.fees.symm
    rw [same] at describes
    exact ⟨describes.openPositions.symm, describes.cash.symm, describes.realisedPnl.symm,
      describes.positions⟩

/-- Nothing has to cancel out when no trade lands between the first call and the last. -/
theorem cancelOut_of_quiet (quiet : i.beforeCash = [] ∧ i.beforePnl = [] ∧ i.beforeFees = [] ∧
    i.beforePositions = []) : i.CancelOut start := by
  rcases quiet with ⟨cash, pnl, fees, positions⟩
  constructor <;> simp [atPositions, atFees, atPnl, atCash, cash, pnl, fees, positions, trades]

/-! ## Trades between two calls -/

/-- An account with one position. -/
def invested : PaperGateway :=
  trades (.new 1000) [.buy (ascii "0xc1") (ascii "Up or down") 100 (6 / 10) 0]

/-- Another market is bought and sold between `open_positions()` and `capital()`. -/
def boughtAndSold : Interleaving :=
  ⟨[], [.buy (ascii "0xc2") (ascii "Up or down") 50 (4 / 10) 0, .sell (ascii "0xc2") 50 (5 / 10)],
    [], [], [], []⟩

/-- The position is sold between `total_fees()` and `positions()`. -/
def soldBetween : Interleaving :=
  ⟨[], [], [], [], [.sell (ascii "0xc1") 100 (95 / 100)], []⟩

theorem status_describes_one_state_boughtAndSold :
    ∃ gw, boughtAndSold.Passes invested gw ∧
      (boughtAndSold.status invested fun _ => none).Describes (fun _ => none) gw :=
  (status_describes_one_state invested boughtAndSold fun _ => none).1
    ⟨by decide +kernel, by decide +kernel, by decide +kernel, rfl⟩

/-- One open position is reported and none is marked, so that the equity lacks what it was worth
and what it was sold for. -/
theorem status_mixes_two_states :
    (soldBetween.status invested fun _ => none).openPositions = 1 ∧
    (soldBetween.status invested fun _ => none).positions.entries.length = 0 ∧
    (soldBetween.status invested fun _ => none).equity = invested.capital ∧
    ¬ ∃ gw, soldBetween.Passes invested gw ∧
      (soldBetween.status invested fun _ => none).Describes (fun _ => none) gw := by
  have reported : (soldBetween.status invested fun _ => none).openPositions = 1 := by
    decide +kernel
  have marked : (soldBetween.status invested fun _ => none).positions.entries.length = 0 := by
    decide +kernel
  refine ⟨reported, marked, by decide +kernel, ?_⟩
  rintro ⟨gw, -, describes⟩
  rw [describes.positions, ← describes.openPositions, reported] at marked
  cases marked

end Interleaving

end Tickscope.Bot
