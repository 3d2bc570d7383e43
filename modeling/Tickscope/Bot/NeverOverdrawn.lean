import Mathlib.Algebra.Order.Field.Basic
import Mathlib.Tactic.Linarith
import Mathlib.Tactic.NormNum
import Mathlib.Tactic.Positivity
import Tickscope.Bot.Ledger

/-!
# Whether the paper account is overdrawn

An entry checks that the capital pays for one share, without the fee, and sizes by the capital
that is there. `kellySize_le` says that more than one share is always paid for, so only a single
share can cost more than there is. A sale adds to the capital as long as its fee is not more than
its price, as it is while the bids of the feed are prices (`saleIsWorth_of_bids`).
`never_overdrawn_iff` puts this together for every run of both threads.
-/

namespace Tickscope.Bot

open Tickscope.Lib

/-! ## Fees and sizes -/

/-- One share with the fee of a buy. -/
def unitCost (price : ℚ) : ℚ := price * (1 + dynamicFeeRate price)

theorem dynamicFeeRate_nonneg (price : ℚ) : 0 ≤ dynamicFeeRate price := by
  have square : 0 ≤ (price * (1 - price)) ^ 2 := sq_nonneg _
  have rate : (0 : ℚ) ≤ feeRate := by norm_num [feeRate]
  exact mul_nonneg rate square

/-- The fee is highest at a half. -/
theorem dynamicFeeRate_le {price : ℚ} (nonneg : 0 ≤ price) (le : price ≤ 1) :
    dynamicFeeRate price ≤ 1 / 64 := by
  have low : 0 ≤ price * (1 - price) := mul_nonneg nonneg (by linarith)
  have high : price * (1 - price) ≤ 1 / 4 := by nlinarith [sq_nonneg (price - 1 / 2)]
  have square : (price * (1 - price)) ^ 2 ≤ (1 / 4) ^ 2 := pow_le_pow_left₀ low high 2
  unfold dynamicFeeRate feeRate feeExponent
  linarith

/-- A price up to 2 is more than the fee on it. -/
theorem dynamicFeeRate_le_self {price : ℚ} (nonneg : 0 ≤ price) (le : price ≤ 2) :
    dynamicFeeRate price ≤ price := by
  have square : (1 - price) ^ 2 ≤ 1 := by nlinarith
  have fee : dynamicFeeRate price = price * (25 / 100 * (price * (1 - price) ^ 2)) := by
    unfold dynamicFeeRate feeRate feeExponent
    ring
  have part : 25 / 100 * (price * (1 - price) ^ 2) ≤ 1 := by
    have bound : price * (1 - price) ^ 2 ≤ 2 * 1 :=
      mul_le_mul le square (sq_nonneg _) (by norm_num)
    linarith
  rw [fee]
  exact mul_le_of_le_one_right nonneg part

theorem unitCost_pos {price : ℚ} (pos : 0 < price) : 0 < unitCost price :=
  mul_pos pos (by linarith [dynamicFeeRate_nonneg price])

theorem round_le (x : ℚ) : round x ≤ x + 1 / 2 := by
  unfold round
  split
  · exact Int.floor_le _
  · have lt := Int.ceil_lt_add_one (x - 1 / 2)
    linarith

theorem clamp_le {x lo hi : ℚ} (le : lo ≤ hi) : clamp x lo hi ≤ hi := by
  unfold clamp
  split
  · exact le
  · split
    · exact le_rfl
    · rename_i small
      exact not_lt.mp small

theorem one_le_kellySize (price available : ℚ) : 1 ≤ kellySize price available := le_max_left _ _

/-- **Sizing.** When the capital pays for a share without its fee, it pays for everything that is
bought beyond one share, with the fees. -/
theorem kellySize_le {price available : ℚ} (pos : 0 < price) (le : price ≤ 1)
    (affordable : price ≤ available) :
    kellySize price available = 1 ∨
      kellySize price available * unitCost price ≤ available := by
  have capped : ∃ f ≤ kellyMaxPct,
      kellySize price available = max 1 (round (f * available / price * 10) / 10) := by
    refine ⟨_, ?_, rfl⟩
    split
    · norm_num [kellyMaxPct]
    · exact clamp_le (by norm_num [kellyMaxPct])
  obtain ⟨f, cap, size⟩ := capped
  rcases le_total (round (f * available / price * 10) / 10) 1 with small | large
  · exact .inl (size.trans (max_eq_left small))
  · refine .inr ?_
    rw [size, max_eq_right large]
    have rounded := round_le (f * available / price * 10)
    have shares : round (f * available / price * 10) / 10 * price ≤
        f * available + price / 20 := by
      have number : round (f * available / price * 10) / 10 ≤ f * available / price + 1 / 20 := by
        linarith
      calc round (f * available / price * 10) / 10 * price
          ≤ (f * available / price + 1 / 20) * price := mul_le_mul_of_nonneg_right number pos.le
        _ = f * available + price / 20 := by
          rw [add_mul, div_mul_cancel₀ _ pos.ne']
          ring
    have fifth : f * available ≤ 1 / 5 * available := by
      refine mul_le_mul_of_nonneg_right ?_ (pos.le.trans affordable)
      exact cap.trans (by norm_num [kellyMaxPct])
    have quarter : round (f * available / price * 10) / 10 * price ≤ available / 4 := by
      linarith
    have fee := dynamicFeeRate_le pos.le le
    have fee' := dynamicFeeRate_nonneg price
    calc round (f * available / price * 10) / 10 * unitCost price
        = round (f * available / price * 10) / 10 * price * (1 + dynamicFeeRate price) := by
          rw [unitCost]
          ring
      _ ≤ available / 4 * (1 + dynamicFeeRate price) :=
          mul_le_mul_of_nonneg_right quarter (by linarith)
      _ ≤ available := by nlinarith

/-! ## Orders -/

/-- Every position is of some shares. -/
def Owned (positions : AList fun _ : Str => Position) : Prop :=
  ∀ cid pos, positions.lookup cid = some pos → 0 ≤ pos.shares

namespace PaperGateway

theorem capital_buy (gw : PaperGateway) (cid question : Str) (shares price : ℚ) (nowMs : Int) :
    (gw.buy cid question shares price nowMs).capital = gw.capital - shares * unitCost price := by
  rw [buy, unitCost]
  ring

theorem owned_buy {gw : PaperGateway} (owned : Owned gw.positions) {shares : ℚ}
    (nonneg : 0 ≤ shares) (cid question : Str) (price : ℚ) (nowMs : Int) :
    Owned (gw.buy cid question shares price nowMs).positions := by
  intro other pos found
  by_cases same : other = cid
  · rw [same, buy, AList.lookup_insert] at found
    cases found
    exact nonneg
  · rw [lookup_buy_of_ne same] at found
    exact owned other pos found

theorem owned_sell {gw : PaperGateway} (owned : Owned gw.positions) (cid : Str)
    (shares price : ℚ) : Owned (gw.sell cid shares price).positions := by
  intro other pos found
  exact owned other pos (lookup_sell_eq_some found).2

/-- A sale at a price that is worth its fee does not cost anything. -/
theorem capital_le_sell (gw : PaperGateway) (cid : Str) {shares price : ℚ} (nonneg : 0 ≤ shares)
    (worth : dynamicFeeRate price ≤ price) :
    gw.capital ≤ (gw.sell cid shares price).capital := by
  unfold sell
  split
  · exact le_rfl
  · have gain := mul_le_mul_of_nonneg_left worth nonneg
    dsimp only
    linarith

end PaperGateway

/-! ## What both threads carry -/

/-- The ask is positive and within the limit of an entry. -/
def Cheap (bk : MarketBook) : Prop := 0 < bk.noAsk ∧ bk.noAsk ≤ defaultMaxEntryAsk

theorem Cheap.fill {bk : MarketBook} (cheap : Cheap bk) :
    0 < bk.noAsk * (1 + slippage) ∧ bk.noAsk * (1 + slippage) ≤ 1 := by
  rcases cheap with ⟨pos, le⟩
  unfold slippage
  unfold defaultMaxEntryAsk at le
  constructor <;> linarith

/-- An order of this size is one share, or it is paid for. -/
structure Sized (capital shares price : ℚ) : Prop where
  pos : 0 < price
  one_le : 1 ≤ shares
  paid : shares = 1 ∨ shares * unitCost price ≤ capital

/-- What holds of `on_tick` on its way to an order. -/
def OnTick.Funded (capital : ℚ) : OnTick → Prop
  | .entryMeta _ bk _ => Cheap bk
  | .checkCapital _ bk _ => Cheap bk
  | .size _ bk _ => Cheap bk ∧ bk.noAsk * (1 + slippage) ≤ capital
  | .refetchMeta _ _ shares fillPx => Sized capital shares fillPx
  | .buy _ _ shares fillPx => Sized capital shares fillPx
  | .sell _ shares _ => 0 ≤ shares
  | _ => True

theorem OnTick.Funded.mono {capital capital' : ℚ} (le : capital ≤ capital') {ws : OnTick}
    (funded : ws.Funded capital) : ws.Funded capital' := by
  cases ws with
  | size => exact ⟨funded.1, funded.2.trans le⟩
  | refetchMeta =>
      exact ⟨funded.pos, funded.one_le, funded.paid.imp_right fun paid => paid.trans le⟩
  | buy => exact ⟨funded.pos, funded.one_le, funded.paid.imp_right fun paid => paid.trans le⟩
  | _ => exact funded

/-- What a sweep holds are positions of some shares. -/
def Sweep.Owned : Sweep → Prop
  | .examine _ positions _ _ => Bot.Owned positions
  | .getBook _ positions _ => Bot.Owned positions
  | .sell _ positions _ shares _ _ => Bot.Owned positions ∧ 0 ≤ shares
  | _ => True

/-- The price of the buy that `on_tick` makes next. -/
def OnTick.buyPrice : OnTick → Option ℚ
  | .buy _ _ _ fillPx => some fillPx
  | _ => none

/-- The price of the sale that `on_tick` makes next. -/
def OnTick.sellPrice : OnTick → Option ℚ
  | .sell _ _ fillPx => some fillPx
  | _ => none

/-- The price of the sale that a sweep makes next. -/
def Sweep.sellPrice : Sweep → Option ℚ
  | .sell _ _ _ _ exitPx _ => some exitPx
  | _ => none

namespace System

/-- What a step keeps. -/
structure Funded (s : System) : Prop where
  cash : 0 ≤ s.gateway.capital
  owned : Owned s.gateway.positions
  ws : s.ws.Funded s.gateway.capital
  main : s.main.Owned

theorem new_funded {initial : ℚ} (pos : 0 < initial) (clock : Int) :
    (new initial clock).Funded where
  cash := pos.le
  owned cid pos found := by
    rw [new, PaperGateway.new, AList.lookup_empty] at found
    cases found
  ws := True.intro
  main := True.intro

/-! ## Conditions on a step -/

/-- A sale is made at a price that is worth its fee. -/
def SaleIsWorth (s : System) : Label → Prop
  | .ws _ => ∀ price ∈ s.ws.sellPrice, dynamicFeeRate price ≤ price
  | .main _ _ => ∀ price ∈ s.main.sellPrice, dynamicFeeRate price ≤ price
  | _ => True

/-- A buy finds the capital for one share with its fee. -/
def PaysForOne (s : System) : Label → Prop
  | .ws _ => ∀ price ∈ s.ws.buyPrice, unitCost price ≤ s.gateway.capital
  | _ => True

instance (s : System) : ∀ l, Decidable (s.SaleIsWorth l)
  | .ws _ => inferInstanceAs (Decidable (∀ price ∈ s.ws.sellPrice, dynamicFeeRate price ≤ price))
  | .main _ _ =>
      inferInstanceAs (Decidable (∀ price ∈ s.main.sellPrice, dynamicFeeRate price ≤ price))
  | .update .. => .isTrue trivial
  | .addMarket _ => .isTrue trivial
  | .sweep => .isTrue trivial

instance (s : System) : ∀ l, Decidable (s.PaysForOne l)
  | .ws _ =>
      inferInstanceAs (Decidable (∀ price ∈ s.ws.buyPrice, unitCost price ≤ s.gateway.capital))
  | .main .. => .isTrue trivial
  | .update .. => .isTrue trivial
  | .addMarket _ => .isTrue trivial
  | .sweep => .isTrue trivial

/-! ## Steps -/

theorem enter_funded {engine : StrategyEngine} (limit : engine.maxEntryAsk = defaultMaxEntryAsk)
    (cid : Str) (bk : MarketBook) (now : Int) (capital : ℚ) :
    (engine.enter cid bk now).Funded capital := by
  unfold StrategyEngine.enter
  split
  · trivial
  · rename_i valid
    split
    · trivial
    · split
      · trivial
      · rename_i cheap
        have noValid : bk.noValid = true := by
          cases noValid : bk.noValid with
          | true => rfl
          | false => simp [noValid] at valid
        rw [MarketBook.noValid, decide_eq_true_eq] at noValid
        exact ⟨noValid.1.trans noValid.2, limit ▸ not_lt.mp cheap⟩

/-- An entry that the capital pays for without the fee is sized. -/
theorem sized_kellySize {bk : MarketBook} {capital fillPx : ℚ} (cheap : Cheap bk)
    (fill : fillPx = bk.noAsk * (1 + slippage)) (enough : fillPx ≤ capital) :
    Sized capital (kellySize fillPx capital) fillPx := by
  rcases cheap.fill with ⟨pos, le_one⟩
  rw [← fill] at pos le_one
  exact ⟨pos, one_le_kellySize .., kellySize_le pos le_one enough⟩

/-- Looking keeps what holds of `on_tick`. -/
theorem Funded.looks {engine : StrategyEngine} (limit : engine.maxEntryAsk = defaultMaxEntryAsk)
    {s : System} (funded : s.Funded) {next : OnTick} (looks : s.Looks engine s.ws next) :
    next.Funded s.gateway.capital := by
  have here := funded.ws
  generalize s.ws = ws at looks here
  cases looks with
  | @held cid bk read =>
      rcases leave_cases engine cid bk read with eq | eq | eq <;> rw [eq] <;> trivial
  | vacant => exact enter_funded limit ..
  | inTime => exact here
  | enough pays =>
      rw [kellyMinSh, mul_one] at pays
      exact ⟨here, pays⟩
  | named _ fill => exact sized_kellySize here.1 fill (fill ▸ here.2)
  | unnamed _ fill => exact sized_kellySize here.1 fill (fill ▸ here.2)
  | refetched => exact here
  | found seen => exact funded.owned _ _ seen
  | noBook | book | tooLate | tooDear | expiring | staying | gone => trivial

theorem Funded.stepOnTick {engine : StrategyEngine}
    (limit : engine.maxEntryAsk = defaultMaxEntryAsk) {s s' : System} (funded : s.Funded)
    {now : Int} (worth : s.SaleIsWorth (.ws now)) (pays : s.PaysForOne (.ws now))
    (step : s.stepOnTick engine now = some s') : s'.Funded := by
  have here := funded.ws
  cases ticks_of_stepOnTick step with
  | looks state looks =>
      exact ⟨funded.cash, funded.owned, funded.looks limit (state ▸ looks), funded.main⟩
  | clock => exact ⟨funded.cash, funded.owned, trivial, funded.main⟩
  | @buy cid question shares fillPx state =>
      rw [state] at here
      have one := pays fillPx (by rw [state]; rfl)
      have paid : shares * unitCost fillPx ≤ s.gateway.capital := by
        rcases here.paid with single | paid
        · rw [single, one_mul]
          exact one
        · exact paid
      have owned := PaperGateway.owned_buy funded.owned (zero_le_one.trans here.one_le) cid
        question fillPx now
      refine ⟨?_, owned, trivial, funded.main⟩
      dsimp only
      rw [PaperGateway.capital_buy]
      exact sub_nonneg.mpr paid
  | @sell cid shares fillPx state =>
      rw [state] at here
      have more := s.gateway.capital_le_sell cid here (worth fillPx (by rw [state]; rfl))
      have owned := PaperGateway.owned_sell funded.owned cid shares fillPx
      exact ⟨funded.cash.trans more, owned, trivial, funded.main⟩

/-- Looking keeps what holds of a sweep. -/
theorem Funded.sweeps {s : System} (funded : s.Funded) {order : List Str} {next : Sweep}
    (sweeps : s.Sweeps order s.main next) : next.Owned := by
  have here := funded.main
  generalize s.main = main at sweeps here
  cases sweeps with
  | snapshot => exact funded.owned
  | examined | expiring | staying | unseen => exact here
  | done => trivial
  | seen found => exact ⟨here, here _ _ found⟩

theorem Funded.stepSweep {s s' : System} (funded : s.Funded) {now : Int} {order : List Str}
    (worth : s.SaleIsWorth (.main now order)) (step : s.stepSweep now order = some s') :
    s'.Funded := by
  have here := funded.main
  cases turns_of_stepSweep step with
  | sweeps state sweeps =>
      exact ⟨funded.cash, funded.owned, funded.ws, funded.sweeps (state ▸ sweeps)⟩
  | clock => exact ⟨funded.cash, funded.owned, funded.ws, trivial⟩
  | @sell read positions cid shares exitPx rest state =>
      rw [state] at here
      have more := s.gateway.capital_le_sell cid here.2 (worth exitPx (by rw [state]; rfl))
      exact ⟨funded.cash.trans more, PaperGateway.owned_sell funded.owned cid shares exitPx,
        funded.ws.mono more, here.1⟩

theorem keeps_funded {engine : StrategyEngine} (limit : engine.maxEntryAsk = defaultMaxEntryAsk) :
    (machine engine).Keeps (fun s l => s.SaleIsWorth l ∧ s.PaysForOne l) Funded := by
  intro s l s' funded allowed step
  cases l with
  | update tokenId bid ask =>
      simp only [machine, System.step] at step
      split at step <;> cases step
      refine ⟨funded.cash, funded.owned, ?_, funded.main⟩
      dsimp only
      split <;> trivial
  | ws now => exact funded.stepOnTick limit allowed.1 allowed.2 step
  | addMarket info =>
      simp only [machine, System.step] at step
      split at step <;> cases step
      exact ⟨funded.cash, funded.owned, funded.ws, funded.main⟩
  | sweep =>
      simp only [machine, System.step] at step
      split at step <;> cases step
      exact ⟨funded.cash, funded.owned, funded.ws, trivial⟩
  | main now order => exact funded.stepSweep allowed.1 step

/-- A buy that finds less leaves a debt. -/
theorem paysForOne_of_nonneg {engine : StrategyEngine} {s s' : System} {l : Label}
    (funded : s.Funded) (step : (machine engine).step s l = some s')
    (nonneg : 0 ≤ s'.gateway.capital) : s.PaysForOne l := by
  cases l with
  | ws now =>
      intro price next
      have found : ∃ cid question shares, s.ws = .buy cid question shares price := by
        cases state : s.ws with
        | buy cid question shares fillPx =>
            rw [state] at next
            cases next
            exact ⟨cid, question, shares, rfl⟩
        | _ =>
            rw [state] at next
            cases next
      obtain ⟨cid, question, shares, state⟩ := found
      have here := funded.ws
      rw [state] at here
      simp only [machine, System.step, System.stepOnTick, state] at step
      obtain ⟨-, rfl⟩ := of_readClock step
      dsimp only at nonneg
      rw [PaperGateway.capital_buy, sub_nonneg] at nonneg
      exact (le_mul_of_one_le_left (unitCost_pos here.pos).le here.one_le).trans nonneg
  | update => trivial
  | addMarket => trivial
  | sweep => trivial
  | main => trivial

/-- **The paper account.** However the two threads interleave and whatever the feed sends: as long
as no sale is made at a price below its own fee, the capital is never negative if and only if
every buy finds the capital for one share with its fee. -/
theorem never_overdrawn_iff (threshold exitThresh : ℚ) {initial : ℚ} (pos : 0 < initial)
    (clock : Int) {labels : List Label} {s : System}
    (reached : (machine ⟨threshold, exitThresh, defaultMaxEntryAsk⟩).run (new initial clock)
      labels = some s)
    (worth : (machine ⟨threshold, exitThresh, defaultMaxEntryAsk⟩).Along SaleIsWorth
      (new initial clock) labels) :
    (machine ⟨threshold, exitThresh, defaultMaxEntryAsk⟩).Always
        (fun s => 0 ≤ s.gateway.capital) (new initial clock) labels ↔
      (machine ⟨threshold, exitThresh, defaultMaxEntryAsk⟩).Along PaysForOne
        (new initial clock) labels :=
  Machine.always_iff_along (keeps_funded rfl) (fun _ funded => funded.cash)
    (fun _ _ _ funded _ step nonneg => paysForOne_of_nonneg funded step nonneg)
    (new_funded pos clock) worth reached

/-! ## A capital between the price and the cost of a share -/

/-- The first entry of `sampleRun`. -/
def entryRun : List Label := sampleRun.take 13

/-- With 1000 every buy of `sampleRun` is paid for. -/
theorem never_overdrawn_sample :
    (machine {}).Always (fun s => 0 ≤ s.gateway.capital) (new 1000 0) sampleRun := by
  have ends : ((machine {}).run (new 1000 0) sampleRun).isSome = true := by decide +kernel
  obtain ⟨s, reached⟩ := Option.isSome_iff_exists.mp ends
  exact (never_overdrawn_iff defaultThreshold defaultExitThreshold (by decide) 0 reached
    (by decide +kernel)).mpr (by decide +kernel)

/-- A share at 0.62031 is bought with 0.625, and its fee is not covered. -/
theorem never_overdrawn_fails_at_one_share :
    (((machine {}).run (new (625 / 1000) 0) entryRun).map fun s =>
      (decide (s.gateway.capital < 0), s.gateway.positions.keys)) = some (true, [ascii "0xc1"]) ∧
    ¬ (machine {}).Always (fun s => 0 ≤ s.gateway.capital) (new (625 / 1000) 0) entryRun := by
  have debt : (((machine {}).run (new (625 / 1000) 0) entryRun).map fun s =>
      (decide (s.gateway.capital < 0), s.gateway.positions.keys)) =
        some (true, [ascii "0xc1"]) := by
    decide +kernel
  refine ⟨debt, fun always => ?_⟩
  obtain ⟨s, reached, seen⟩ := Option.map_eq_some_iff.mp debt
  have negative : s.gateway.capital < 0 := of_decide_eq_true (Prod.ext_iff.mp seen).1
  exact absurd (always.last reached) (not_le.mpr negative)

end System

/-! ## Bids of at most one -/

/-- The number is from 0 to 1, as what a share is worth. -/
def IsPrice (x : ℚ) : Prop := 0 ≤ x ∧ x ≤ 1

theorem IsPrice.worth {x : ℚ} (isPrice : IsPrice x) : dynamicFeeRate x ≤ x :=
  dynamicFeeRate_le_self isPrice.1 (isPrice.2.trans one_le_two)

theorem IsPrice.less_slippage {x : ℚ} (isPrice : IsPrice x) : IsPrice (x * (1 - slippage)) := by
  obtain ⟨nonneg, le⟩ := isPrice
  unfold slippage
  constructor <;> linarith

/-- The bids of a feed are prices. -/
def Label.Bids : Label → Prop
  | .update _ bid _ => IsPrice bid
  | _ => True

/-- Every position was entered at a price. -/
def Entered (positions : AList fun _ : Str => Position) : Prop :=
  ∀ cid pos, positions.lookup cid = some pos → IsPrice pos.entryPrice

/-- The prices that `on_tick` carries. -/
def OnTick.Priced : OnTick → Prop
  | .clock _ bk | .hasPosition _ bk _ | .exitMeta _ bk _ | .snapshot _ bk => IsPrice bk.noBid
  | .entryMeta _ bk _ | .checkCapital _ bk _ | .size _ bk _ => Cheap bk
  | .refetchMeta _ _ _ fillPx | .buy _ _ _ fillPx | .sell _ _ fillPx => IsPrice fillPx
  | .idle | .getBook _ => True

/-- The prices that a sweep carries. -/
def Sweep.Priced : Sweep → Prop
  | .examine _ positions _ _ | .getBook _ positions _ => Entered positions
  | .sell _ positions _ _ exitPx _ => Entered positions ∧ IsPrice exitPx
  | .idle | .clock | .snapshot _ => True

namespace System

/-- Prices wherever there should be one. -/
structure Priced (s : System) : Prop where
  books : ∀ cid bk, s.books.getBook cid = some bk → IsPrice bk.noBid
  positions : Entered s.gateway.positions
  ws : s.ws.Priced
  main : s.main.Priced

theorem new_priced (initial : ℚ) (clock : Int) : (new initial clock).Priced where
  books cid bk found := by
    rw [BookState.getBook, new, BookState.new, AList.lookup_empty] at found
    cases found
  positions cid pos found := by
    rw [new, PaperGateway.new, AList.lookup_empty] at found
    cases found
  ws := True.intro
  main := True.intro

theorem Priced.onTick {s : System} (priced : s.Priced) (tokenId : Str) {bid : ℚ}
    (isPrice : IsPrice bid) (ask : ℚ) (cid : Str) (bk : MarketBook)
    (found : (s.books.onTick tokenId bid ask).1.getBook cid = some bk) : IsPrice bk.noBid := by
  unfold BookState.onTick BookState.getBook at found
  split at found
  · exact priced.books cid bk found
  · rename_i own _
    split at found
    · rename_i book info known _
      by_cases same : cid = own
      · rw [same, AList.lookup_insert] at found
        cases found
        split
        · exact priced.books own book known
        · exact isPrice
      · rw [AList.lookup_insert_ne same] at found
        exact priced.books cid bk found
    · exact priced.books cid bk found

theorem Priced.addMarket {s : System} (priced : s.Priced) (info : MarketMeta) (cid : Str)
    (bk : MarketBook) (found : (s.books.addMarket info).getBook cid = some bk) :
    IsPrice bk.noBid := by
  unfold BookState.addMarket at found
  split at found
  · exact priced.books cid bk found
  · by_cases same : cid = info.conditionId
    · rw [same, BookState.getBook, AList.lookup_insert] at found
      cases found
      exact ⟨le_rfl, zero_le_one⟩
    · rw [BookState.getBook, AList.lookup_insert_ne same] at found
      exact priced.books cid bk found

theorem Priced.looks {engine : StrategyEngine} (limit : engine.maxEntryAsk = defaultMaxEntryAsk)
    {s : System} (priced : s.Priced) {next : OnTick} (looks : s.Looks engine s.ws next) :
    next.Priced := by
  have here := priced.ws
  generalize s.ws = ws at looks here
  cases looks with
  | book read => exact priced.books _ _ read
  | @held cid bk read => rcases leave_cases engine cid bk read with eq | eq | eq <;> rw [eq] <;> trivial
  | @vacant cid bk read =>
      have funded := enter_funded limit cid bk read s.gateway.capital
      unfold StrategyEngine.enter at funded ⊢
      split_ifs at funded ⊢ <;> trivial
  | inTime | enough | refetched | expiring => exact here
  | named _ fill | unnamed _ fill => exact fill ▸ ⟨here.fill.1.le, here.fill.2⟩
  | found => exact here.less_slippage
  | noBook | tooLate | tooDear | staying | gone => trivial

theorem Priced.stepOnTick {engine : StrategyEngine}
    (limit : engine.maxEntryAsk = defaultMaxEntryAsk) {s s' : System} (priced : s.Priced)
    {now : Int} (step : s.stepOnTick engine now = some s') : s'.Priced := by
  have here := priced.ws
  cases ticks_of_stepOnTick step with
  | looks state looks =>
      exact ⟨priced.books, priced.positions, priced.looks limit (state ▸ looks), priced.main⟩
  | clock state =>
      rw [state] at here
      exact ⟨priced.books, priced.positions, here, priced.main⟩
  | @buy cid question shares fillPx state =>
      rw [state] at here
      refine ⟨priced.books, fun other pos found => ?_, True.intro, priced.main⟩
      by_cases same : other = cid
      · rw [same, PaperGateway.buy, AList.lookup_insert] at found
        cases found
        exact here
      · exact priced.positions other pos ((PaperGateway.lookup_buy_of_ne same ..).symm.trans found)
  | sell state =>
      exact ⟨priced.books, fun other pos found =>
        priced.positions other pos (PaperGateway.lookup_sell_eq_some found).2, True.intro, priced.main⟩

/-- A sweep sells at a bid less slippage, or at half of what was paid. -/
theorem Priced.sweepPrice {s : System} (priced : s.Priced) (cid : Str) {pos : Position}
    (entered : IsPrice pos.entryPrice) : IsPrice (sweepPrice pos (s.books.getBook cid)) := by
  have half : IsPrice (pos.entryPrice * (5 / 10)) := by
    obtain ⟨nonneg, le⟩ := entered
    constructor <;> linarith
  cases found : s.books.getBook cid with
  | none => exact half
  | some bk =>
      show IsPrice (if 0 < bk.noBid then bk.noBid * (1 - slippage) else pos.entryPrice * (5 / 10))
      split
      · exact (priced.books cid bk found).less_slippage
      · exact half

theorem Priced.stepSweep {s s' : System} (priced : s.Priced) {now : Int} {order : List Str}
    (step : s.stepSweep now order = some s') : s'.Priced := by
  have here := priced.main
  cases turns_of_stepSweep step with
  | sweeps state sweeps =>
      refine ⟨priced.books, priced.positions, priced.ws, ?_⟩
      rw [state] at here
      cases sweeps with
      | snapshot => exact priced.positions
      | examined | expiring | staying | unseen => exact here
      | done => trivial
      | seen found => exact ⟨here, priced.sweepPrice _ (here _ _ found)⟩
  | clock => exact ⟨priced.books, priced.positions, priced.ws, trivial⟩
  | sell state =>
      rw [state] at here
      exact ⟨priced.books, fun other pos found =>
        priced.positions other pos (PaperGateway.lookup_sell_eq_some found).2, priced.ws, here.1⟩

theorem keeps_priced {engine : StrategyEngine} (limit : engine.maxEntryAsk = defaultMaxEntryAsk) :
    (machine engine).Keeps (fun _ l => l.Bids) Priced := by
  intro s l s' priced bids step
  cases l with
  | update tokenId bid ask =>
      simp only [machine, System.step] at step
      split at step <;> cases step
      refine ⟨priced.onTick tokenId bids ask, priced.positions, ?_, priced.main⟩
      dsimp only
      split <;> trivial
  | ws now => exact priced.stepOnTick limit step
  | addMarket info =>
      simp only [machine, System.step] at step
      split at step <;> cases step
      exact ⟨priced.addMarket info, priced.positions, priced.ws, priced.main⟩
  | sweep =>
      simp only [machine, System.step] at step
      split at step <;> cases step
      exact ⟨priced.books, priced.positions, priced.ws, trivial⟩
  | main now order => exact priced.stepSweep step

/-- **Sales are worth it** as long as the bids of the feed are prices. -/
theorem saleIsWorth_of_bids (threshold exitThresh initial : ℚ) (clock : Int) {labels : List Label}
    (bids : ∀ l ∈ labels, l.Bids) :
    (machine ⟨threshold, exitThresh, defaultMaxEntryAsk⟩).Along SaleIsWorth (new initial clock)
      labels := by
  refine (keeps_priced rfl).along (fun s l priced _ => ?_) (new_priced initial clock)
    (Machine.along_of_forall_mem (fun l mem _ => bids l mem) _)
  cases l with
  | ws now =>
      intro price next
      have here := priced.ws
      generalize s.ws = ws at next here
      cases ws with
      | sell =>
          cases next
          exact here.worth
      | _ => cases next
  | main now order =>
      intro price next
      have here := priced.main
      generalize s.main = main at next here
      cases main with
      | sell =>
          cases next
          exact here.2.worth
      | _ => cases next
  | update | addMarket | sweep => trivial

end System

end Tickscope.Bot
