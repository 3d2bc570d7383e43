import Tickscope.Bot.StatusLine

/-!
# The executions of a run

What the strategy engine drives through the gateway, on both threads, as a list of trades
(`trades_executions`): per market a buy of some shares, then a sale of the same shares
(`driven_of_run`).
-/

namespace Tickscope.Bot

open Tickscope.Lib

/-- The order of a trade that takes effect. -/
def Trade.order : Trade → Order
  | .buy cid _ shares _ _ => .bought cid shares
  | .sell cid shares _ => .sold cid shares

/-- The trade opens a position of some shares, if it opens one. -/
def Trade.Opens : Trade → Prop
  | .buy _ _ shares _ _ => 0 < shares
  | .sell .. => True

/-- Trades that take effect: each buys some shares of a market that is not open, or sells exactly
what is open. -/
structure Driven (ts : List Trade) : Prop where
  alternates : ∃ isOpen, account.run (fun _ => none) (ts.map Trade.order) = some isOpen
  opens : ∀ t ∈ ts, t.Opens

/-- The shares that `on_tick` is about to buy. -/
def OnTick.buying : OnTick → Option ℚ
  | .refetchMeta _ _ shares _ => some shares
  | .buy _ _ shares _ => some shares
  | _ => none

namespace PaperGateway

/-- A `sell` that finds its position. -/
def sold (gw : PaperGateway) (cid : Str) (shares fillPx : ℚ) : List Trade :=
  if gw.hasPosition cid then [.sell cid shares fillPx] else []

theorem sold_orders (gw : PaperGateway) (cid : Str) (shares fillPx : ℚ) :
    (gw.sold cid shares fillPx).map Trade.order = gw.sale cid shares := by
  rw [sold, sale]
  split <;> rfl

theorem trades_sold (gw : PaperGateway) (cid : Str) (shares fillPx : ℚ) :
    trades gw (gw.sold cid shares fillPx) = gw.sell cid shares fillPx := by
  rw [sold]
  split
  · rfl
  · rename_i missing
    rw [hasPosition, Bool.not_eq_true, Option.isSome_eq_false_iff, Option.isNone_iff_eq_none]
      at missing
    rw [PaperGateway.sell, missing]
    rfl

end PaperGateway

namespace System

/-- The trade that a step executes. -/
def executions (s : System) : Label → List Trade
  | .ws now =>
      match s.ws with
      | .buy cid question shares fillPx => [.buy cid question shares fillPx now]
      | .sell cid shares fillPx => s.gateway.sold cid shares fillPx
      | _ => []
  | .main .. =>
      match s.main with
      | .sell _ _ cid shares exitPx _ => s.gateway.sold cid shares exitPx
      | _ => []
  | _ => []

theorem orders_eq (s : System) (l : Label) : s.orders l = (s.executions l).map Trade.order := by
  cases l with
  | ws now =>
      rw [orders, executions]
      cases s.ws with
      | sell => exact (PaperGateway.sold_orders ..).symm
      | _ => rfl
  | main now order =>
      rw [orders, executions]
      cases s.main with
      | sell => exact (PaperGateway.sold_orders ..).symm
      | _ => rfl
  | _ => rfl

/-- A step does to the gateway what it executes. -/
theorem gateway_of_step {engine : StrategyEngine} {s s' : System} {l : Label}
    (step : s.step engine l = some s') : s'.gateway = trades s.gateway (s.executions l) := by
  cases l with
  | update tokenId bid ask =>
      simp only [System.step] at step
      split at step <;> cases step
      rfl
  | ws now =>
      cases ticks_of_stepOnTick step with
      | looks state looks =>
          rw [executions, state]
          cases looks <;> rfl
      | clock state later =>
          rw [executions, state]
          rfl
      | buy state later =>
          rw [executions, state]
          rfl
      | sell state =>
          rw [executions, state]
          exact (PaperGateway.trades_sold ..).symm
  | addMarket info =>
      simp only [System.step] at step
      split at step <;> cases step
      rfl
  | sweep =>
      simp only [System.step] at step
      split at step <;> cases step
      rfl
  | main now order =>
      cases turns_of_stepSweep step with
      | sweeps state sweeps =>
          rw [executions, state]
          cases sweeps <;> rfl
      | clock state later =>
          rw [executions, state]
          rfl
      | sell state =>
          rw [executions, state]
          exact (PaperGateway.trades_sold ..).symm

/-- **The gateway after a run** is the one after the executions. -/
theorem trades_executions {engine : StrategyEngine} {s t : System} {labels : List Label}
    (reached : (machine engine).run s labels = some t) :
    t.gateway = trades s.gateway ((machine engine).trace executions s labels) := by
  induction labels generalizing s with
  | nil =>
      cases reached
      rfl
  | cons l labels ih =>
      obtain ⟨s', step, rest⟩ := Machine.run_cons_eq_some.mp reached
      rw [ih rest, Machine.trace_cons step, trades_append, ← gateway_of_step step]

/-! ## What is executed -/

/-- `on_tick` is about to buy at least one share, if any. -/
def Buying (s : System) : Prop := ∀ shares, s.ws.buying = some shares → 1 ≤ shares

theorem buying_of_looks {engine : StrategyEngine} {s : System} {ws next : OnTick}
    (looks : Looks engine s ws next) (before : ∀ shares, ws.buying = some shares → 1 ≤ shares) :
    ∀ shares, next.buying = some shares → 1 ≤ shares := by
  cases looks with
  | @held cid bk now =>
      intro shares bought
      rcases leave_cases engine cid bk now with eq | eq | eq <;> (rw [eq] at bought; cases bought)
  | @vacant cid bk now =>
      intro shares bought
      rcases enter_cases engine cid bk now with eq | eq <;> (rw [eq] at bought; cases bought)
  | named | unnamed =>
      rintro shares ⟨rfl⟩
      exact one_le_kellySize ..
  | refetched => exact before
  | _ =>
      intro shares bought
      cases bought

theorem keeps_buying (engine : StrategyEngine) :
    (machine engine).Keeps (fun _ _ => True) Buying := by
  intro s l s' buying _ step
  cases l with
  | update tokenId bid ask =>
      simp only [machine, System.step] at step
      split at step <;> cases step
      intro shares bought
      dsimp only at bought
      split at bought <;> cases bought
  | ws now =>
      cases ticks_of_stepOnTick step with
      | looks state looks =>
          unfold Buying at buying
          rw [state] at buying
          exact buying_of_looks looks buying
      | _ =>
          intro shares bought
          cases bought
  | addMarket info =>
      simp only [machine, System.step] at step
      split at step <;> cases step
      exact buying
  | sweep =>
      simp only [machine, System.step] at step
      split at step <;> cases step
      exact buying
  | main now order =>
      cases turns_of_stepSweep step <;> exact buying

/-- What a step executes opens a position of some shares, if it opens one. -/
theorem Buying.opens {s : System} (buying : s.Buying) (l : Label) :
    ∀ t ∈ s.executions l, t.Opens := by
  have sold : ∀ cid shares fillPx, ∀ t ∈ s.gateway.sold cid shares fillPx, t.Opens := by
    intro cid shares fillPx t mem
    rw [PaperGateway.sold] at mem
    split at mem
    · rw [List.mem_singleton.mp mem]
      exact True.intro
    · cases mem
  cases l with
  | ws now =>
      rw [executions]
      cases state : s.ws with
      | buy cid question shares fillPx =>
          intro t mem
          rw [List.mem_singleton.mp mem]
          have one := buying shares (by rw [state]; rfl)
          show 0 < shares
          linarith
      | sell cid shares fillPx => exact sold cid shares fillPx
      | _ => exact nofun
  | main now order =>
      rw [executions]
      cases s.main with
      | sell read positions cid shares exitPx rest => exact sold cid shares exitPx
      | _ => exact nofun
  | _ => exact nofun

theorem Buying.opens_run {engine : StrategyEngine} {s t : System} {labels : List Label}
    (buying : s.Buying) (reached : (machine engine).run s labels = some t) :
    ∀ x ∈ (machine engine).trace executions s labels, x.Opens := by
  induction labels generalizing s with
  | nil => exact nofun
  | cons l labels ih =>
      obtain ⟨s', step, rest⟩ := Machine.run_cons_eq_some.mp reached
      rw [Machine.trace_cons step, List.forall_mem_append]
      exact ⟨buying.opens l, ih (keeps_buying engine buying True.intro step) rest⟩

theorem trace_orders (engine : StrategyEngine) (s : System) (labels : List Label) :
    (machine engine).trace orders s labels =
      ((machine engine).trace executions s labels).map Trade.order := by
  induction labels generalizing s with
  | nil => rfl
  | cons l labels ih =>
      rw [Machine.trace, Machine.trace]
      split
      · rw [List.map_append, ← orders_eq, ih]
      · rfl

/-- **What a run executes** is driven by the strategy: buys of some shares, each followed by a sale
of them before the market is bought again. -/
theorem driven_of_run {engine : StrategyEngine} {initial : ℚ} {clock : Int} {labels : List Label}
    {s : System} (reached : (machine engine).run (new initial clock) labels = some s) :
    Driven ((machine engine).trace executions (new initial clock) labels) where
  alternates := ⟨_, trace_orders engine _ labels ▸ (account_of_run reached).2⟩
  opens := Buying.opens_run nofun reached

end System

end Tickscope.Bot
