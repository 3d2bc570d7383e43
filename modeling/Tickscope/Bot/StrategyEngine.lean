import Mathlib.Data.Rat.Floor
import Tickscope.Bot.OrderGateway
import Tickscope.Lib.Machine

/-!
# The strategy on two threads

`src/bot/StrategyEngine.hpp`: `on_tick` on the WebSocket thread beside
`sweep_expired` on the main thread. A call of the book state or of the gateway
runs under that object's mutex and is one step, and so is a reading of the clock;
what is computed between two such calls belongs to the step before it. The main
thread adds markets between two sweeps. The order in which `unordered_map` is
walked is in the label of the snapshot.
-/

namespace Tickscope.Bot

open Tickscope.Lib

/-! ## Parameters -/

/-- `THRESHOLD`. -/
def defaultThreshold : ℚ := 40 / 100

/-- `EXIT_THRESHOLD`. -/
def defaultExitThreshold : ℚ := 96 / 100

/-- `MAX_ENTRY_ASK`. -/
def defaultMaxEntryAsk : ℚ := 65 / 100

/-- `SLIPPAGE`. -/
def slippage : ℚ := 5 / 10000

/-- `KELLY_WIN_RATE`. -/
def kellyWinRate : ℚ := 749 / 1000

/-- `KELLY_FRACTION`. -/
def kellyFraction : ℚ := 5 / 10

/-- `KELLY_MAX_PCT`. -/
def kellyMaxPct : ℚ := 20 / 100

/-- `KELLY_MIN_SH`. -/
def kellyMinSh : ℚ := 1

/-- `MIN_REMAINING_S`. -/
def minRemainingS : Int := 120

/-- `EXPIRY_GRACE_S`. -/
def expiryGraceS : Int := 30

/-- The constructor's arguments, with their defaults. -/
structure StrategyEngine where
  threshold : ℚ := defaultThreshold
  exitThresh : ℚ := defaultExitThreshold
  maxEntryAsk : ℚ := defaultMaxEntryAsk

/-! ## Sizing -/

/-- `std::round`: halves go away from zero. -/
def round (x : ℚ) : ℚ := if 0 ≤ x then ⌊x + 1 / 2⌋ else ⌈x - 1 / 2⌉

/-- `std::clamp`. -/
def clamp (x lo hi : ℚ) : ℚ := if x < lo then lo else if hi < x then hi else x

/-- `kelly_size`. At `b = 0` the quotient is infinite, and `clamp` cuts its negative to 0. -/
def kellySize (fillPrice available : ℚ) : ℚ :=
  let b := (1 - fillPrice) / fillPrice
  let f :=
    if b = 0 then 0
    else clamp ((kellyWinRate - (1 - kellyWinRate) / b) * kellyFraction) 0 kellyMaxPct
  let n := f * available / fillPrice
  max kellyMinSh (round (n * 10) / 10)

/-- What a sweep sells at: the bid less slippage, or half the entry price without a bid. -/
def sweepPrice (pos : Position) : Option MarketBook → ℚ
  | some bk => if 0 < bk.noBid then bk.noBid * (1 - slippage) else pos.entryPrice * (5 / 10)
  | none => pos.entryPrice * (5 / 10)

/-! ## The threads -/

/-- The next step of `on_tick`. -/
inductive OnTick where
  | idle
  /-- `books_.get_book(cid, bk)` -/
  | getBook (cid : Str)
  /-- `now = now_ms()` -/
  | clock (cid : Str) (bk : MarketBook)
  /-- `gateway_.has_position(cid)` -/
  | hasPosition (cid : Str) (bk : MarketBook) (now : Int)
  /-- entry: `books_.get_meta(cid, meta)` -/
  | entryMeta (cid : Str) (bk : MarketBook) (now : Int)
  /-- entry: the first `gateway_.available_capital()` -/
  | checkCapital (cid : Str) (bk : MarketBook) (info : Option MarketMeta)
  /-- entry: the second `gateway_.available_capital()` -/
  | size (cid : Str) (bk : MarketBook) (info : Option MarketMeta)
  /-- entry: `books_.get_meta` once more when the first one gave no id -/
  | refetchMeta (cid : Str) (info : Option MarketMeta) (shares fillPx : ℚ)
  /-- entry: `gateway_.buy` -/
  | buy (cid question : Str) (shares fillPx : ℚ)
  /-- exit: `books_.get_meta(cid, meta)` -/
  | exitMeta (cid : Str) (bk : MarketBook) (now : Int)
  /-- exit: `gateway_.positions()` -/
  | snapshot (cid : Str) (bk : MarketBook)
  /-- exit: `gateway_.sell` -/
  | sell (cid : Str) (shares fillPx : ℚ)

/-- The next step of the main thread, which is in `sweep_expired` unless idle. -/
inductive Sweep where
  | idle
  /-- `now = now_ms()` -/
  | clock
  /-- `positions = gateway_.positions()` -/
  | snapshot (now : Int)
  /-- `books_.get_meta(cid, meta)` for the first of the remaining ids -/
  | examine (now : Int) (positions : AList fun _ : Str => Position) (remaining expired : List Str)
  /-- `books_.get_book(cid, bk)` for the first of the expired ids -/
  | getBook (now : Int) (positions : AList fun _ : Str => Position) (expired : List Str)
  /-- `gateway_.sell` -/
  | sell (now : Int) (positions : AList fun _ : Str => Position) (cid : Str) (shares exitPx : ℚ)
      (expired : List Str)

structure System where
  books : BookState
  gateway : PaperGateway
  ws : OnTick
  main : Sweep
  /-- the last reading of the system clock -/
  clock : Int

/-- The feed changes a book and calls `on_tick`; the main thread adds a market or sweeps. -/
inductive Label where
  | update (tokenId : Str) (bid ask : ℚ)
  | ws (now : Int)
  | addMarket (info : MarketMeta)
  | sweep
  | main (now : Int) (order : List Str)

/-- The market is known to end by `deadline`. -/
def endsBy (deadline : Int) : Option MarketMeta → Bool
  | some info => 0 < info.endTimeMs ∧ info.endTimeMs ≤ deadline
  | none => false

namespace StrategyEngine

variable (engine : StrategyEngine)

/-- The checks of the entry branch up to `get_meta`. -/
def enter (cid : Str) (bk : MarketBook) (now : Int) : OnTick :=
  if !bk.yesValid || !bk.noValid then .idle
  else if engine.threshold < bk.yesMid then .idle
  else if engine.maxEntryAsk < bk.noAsk then .idle
  else .entryMeta cid bk now

/-- The checks of the exit branch up to `get_meta`. -/
def leave (cid : Str) (bk : MarketBook) (now : Int) : OnTick :=
  if !bk.noValid then .idle
  else if engine.exitThresh ≤ bk.noMid then .snapshot cid bk
  else .exitMeta cid bk now

end StrategyEngine

namespace System

/-- The system clock reads `now`, which is never earlier than before. -/
def readClock (s : System) (now : Int) : Option System :=
  if s.clock ≤ now then some { s with clock := now } else none

/-- `on_tick` takes its next step. -/
def stepOnTick (engine : StrategyEngine) (s : System) (now : Int) : Option System :=
  match s.ws with
  | .idle => none
  | .getBook cid =>
      match s.books.getBook cid with
      | none => some { s with ws := .idle }
      | some bk => some { s with ws := .clock cid bk }
  | .clock cid bk => (s.readClock now).map fun s => { s with ws := .hasPosition cid bk now }
  | .hasPosition cid bk now =>
      if s.gateway.hasPosition cid then some { s with ws := engine.leave cid bk now }
      else some { s with ws := engine.enter cid bk now }
  | .entryMeta cid bk now =>
      let info := s.books.getMeta cid
      if endsBy (now + minRemainingS * 1000) info then some { s with ws := .idle }
      else some { s with ws := .checkCapital cid bk info }
  | .checkCapital cid bk info =>
      if s.gateway.capital < bk.noAsk * (1 + slippage) * kellyMinSh then some { s with ws := .idle }
      else some { s with ws := .size cid bk info }
  | .size cid bk info =>
      let fillPx := bk.noAsk * (1 + slippage)
      let shares := kellySize fillPx s.gateway.capital
      match info with
      | some info' =>
          if info'.conditionId = [] then
            some { s with ws := .refetchMeta cid info shares fillPx }
          else some { s with ws := .buy cid info'.question shares fillPx }
      | none => some { s with ws := .refetchMeta cid info shares fillPx }
  | .refetchMeta cid info shares fillPx =>
      let question := (((s.books.getMeta cid) <|> info).map MarketMeta.question).getD []
      some { s with ws := .buy cid question shares fillPx }
  | .buy cid question shares fillPx =>
      (s.readClock now).map fun s =>
        { s with gateway := s.gateway.buy cid question shares fillPx now, ws := .idle }
  | .exitMeta cid bk now =>
      if endsBy (now + expiryGraceS * 1000) (s.books.getMeta cid) then
        some { s with ws := .snapshot cid bk }
      else some { s with ws := .idle }
  | .snapshot cid bk =>
      match s.gateway.positions.lookup cid with
      | none => some { s with ws := .idle }
      | some pos => some { s with ws := .sell cid pos.shares (bk.noBid * (1 - slippage)) }
  | .sell cid shares fillPx =>
      some { s with gateway := s.gateway.sell cid shares fillPx, ws := .idle }

/-- `sweep_expired` takes its next step. -/
def stepSweep (s : System) (now : Int) (order : List Str) : Option System :=
  match s.main with
  | .idle => none
  | .clock => (s.readClock now).map fun s => { s with main := .snapshot now }
  | .snapshot now =>
      if order.Perm s.gateway.positions.keys then
        some { s with main := .examine now s.gateway.positions order [] }
      else none
  | .examine now positions remaining expired =>
      match remaining with
      | [] => some { s with main := .getBook now positions expired }
      | cid :: rest =>
          if endsBy (now + expiryGraceS * 1000) (s.books.getMeta cid) then
            some { s with main := .examine now positions rest (expired ++ [cid]) }
          else some { s with main := .examine now positions rest expired }
  | .getBook now positions expired =>
      match expired with
      | [] => some { s with main := .idle }
      | cid :: rest =>
          match positions.lookup cid with
          | none => some { s with main := .getBook now positions rest }
          | some pos =>
              let exitPx := sweepPrice pos (s.books.getBook cid)
              some { s with main := .sell now positions cid pos.shares exitPx rest }
  | .sell now positions cid shares exitPx rest =>
      some { s with
        gateway := s.gateway.sell cid shares exitPx
        main := .getBook now positions rest }

def step (engine : StrategyEngine) (s : System) : Label → Option System
  | .update tokenId bid ask =>
      match s.ws with
      | .idle =>
          let result := s.books.onTick tokenId bid ask
          some { s with
            books := result.1
            ws := if result.2 = [] then .idle else .getBook result.2 }
      | _ => none
  | .ws now => s.stepOnTick engine now
  | .addMarket info =>
      match s.main with
      | .idle => some { s with books := s.books.addMarket info }
      | _ => none
  | .sweep =>
      match s.main with
      | .idle => some { s with main := .clock }
      | _ => none
  | .main now order => s.stepSweep now order

/-- The WebSocket thread beside the main thread. -/
def machine (engine : StrategyEngine) : Machine System Label := ⟨step engine⟩

def new (initialCapital : ℚ) (clock : Int) : System where
  books := .new
  gateway := .new initialCapital
  ws := .idle
  main := .idle
  clock := clock

/-! ## What a step does -/

/-- How `on_tick` goes on when it only reads. -/
inductive Looks (engine : StrategyEngine) (s : System) : OnTick → OnTick → Prop
  | noBook {cid : Str} : s.books.getBook cid = none → Looks engine s (.getBook cid) .idle
  | book {cid : Str} {bk : MarketBook} :
    s.books.getBook cid = some bk → Looks engine s (.getBook cid) (.clock cid bk)
  | held {cid : Str} {bk : MarketBook} {now : Int} :
    s.gateway.hasPosition cid = true →
    Looks engine s (.hasPosition cid bk now) (engine.leave cid bk now)
  | vacant {cid : Str} {bk : MarketBook} {now : Int} :
    s.gateway.hasPosition cid = false →
    Looks engine s (.hasPosition cid bk now) (engine.enter cid bk now)
  | tooLate {cid : Str} {bk : MarketBook} {now : Int} :
    endsBy (now + minRemainingS * 1000) (s.books.getMeta cid) = true →
    Looks engine s (.entryMeta cid bk now) .idle
  | inTime {cid : Str} {bk : MarketBook} {now : Int} :
    endsBy (now + minRemainingS * 1000) (s.books.getMeta cid) = false →
    Looks engine s (.entryMeta cid bk now) (.checkCapital cid bk (s.books.getMeta cid))
  | tooDear {cid : Str} {bk : MarketBook} {info : Option MarketMeta} :
    s.gateway.capital < bk.noAsk * (1 + slippage) * kellyMinSh →
    Looks engine s (.checkCapital cid bk info) .idle
  | enough {cid : Str} {bk : MarketBook} {info : Option MarketMeta} :
    bk.noAsk * (1 + slippage) * kellyMinSh ≤ s.gateway.capital →
    Looks engine s (.checkCapital cid bk info) (.size cid bk info)
  | named {cid : Str} {bk : MarketBook} {info : MarketMeta} {fillPx : ℚ} :
    info.conditionId ≠ [] → fillPx = bk.noAsk * (1 + slippage) →
    Looks engine s (.size cid bk (some info))
      (.buy cid info.question (kellySize fillPx s.gateway.capital) fillPx)
  | unnamed {cid : Str} {bk : MarketBook} {info : Option MarketMeta} {fillPx : ℚ} :
    (∀ known ∈ info, known.conditionId = []) → fillPx = bk.noAsk * (1 + slippage) →
    Looks engine s (.size cid bk info)
      (.refetchMeta cid info (kellySize fillPx s.gateway.capital) fillPx)
  | refetched {cid question : Str} {info : Option MarketMeta} {shares fillPx : ℚ} :
    question = (((s.books.getMeta cid) <|> info).map MarketMeta.question).getD [] →
    Looks engine s (.refetchMeta cid info shares fillPx) (.buy cid question shares fillPx)
  | expiring {cid : Str} {bk : MarketBook} {now : Int} :
    endsBy (now + expiryGraceS * 1000) (s.books.getMeta cid) = true →
    Looks engine s (.exitMeta cid bk now) (.snapshot cid bk)
  | staying {cid : Str} {bk : MarketBook} {now : Int} :
    endsBy (now + expiryGraceS * 1000) (s.books.getMeta cid) = false →
    Looks engine s (.exitMeta cid bk now) .idle
  | gone {cid : Str} {bk : MarketBook} :
    s.gateway.positions.lookup cid = none → Looks engine s (.snapshot cid bk) .idle
  | found {cid : Str} {bk : MarketBook} {pos : Position} :
    s.gateway.positions.lookup cid = some pos →
    Looks engine s (.snapshot cid bk) (.sell cid pos.shares (bk.noBid * (1 - slippage)))

/-- All that a step of `on_tick` can do. -/
inductive Ticks (engine : StrategyEngine) (s : System) (now : Int) : System → Prop
  | looks {ws next : OnTick} :
    s.ws = ws → Looks engine s ws next → Ticks engine s now { s with ws := next }
  | clock {cid : Str} {bk : MarketBook} :
    s.ws = .clock cid bk → s.clock ≤ now →
    Ticks engine s now { s with clock := now, ws := .hasPosition cid bk now }
  | buy {cid question : Str} {shares fillPx : ℚ} :
    s.ws = .buy cid question shares fillPx → s.clock ≤ now →
    Ticks engine s now
      { s with clock := now, gateway := s.gateway.buy cid question shares fillPx now, ws := .idle }
  | sell {cid : Str} {shares fillPx : ℚ} :
    s.ws = .sell cid shares fillPx →
    Ticks engine s now { s with gateway := s.gateway.sell cid shares fillPx, ws := .idle }

/-- How a sweep goes on when it only reads. -/
inductive Sweeps (s : System) (order : List Str) : Sweep → Sweep → Prop
  | snapshot {now : Int} :
    order.Perm s.gateway.positions.keys →
    Sweeps s order (.snapshot now) (.examine now s.gateway.positions order [])
  | examined {now : Int} {positions : AList fun _ : Str => Position} {expired : List Str} :
    Sweeps s order (.examine now positions [] expired) (.getBook now positions expired)
  | expiring {now : Int} {positions : AList fun _ : Str => Position} {cid : Str}
    {rest expired : List Str} :
    endsBy (now + expiryGraceS * 1000) (s.books.getMeta cid) = true →
    Sweeps s order (.examine now positions (cid :: rest) expired)
      (.examine now positions rest (expired ++ [cid]))
  | staying {now : Int} {positions : AList fun _ : Str => Position} {cid : Str}
    {rest expired : List Str} :
    endsBy (now + expiryGraceS * 1000) (s.books.getMeta cid) = false →
    Sweeps s order (.examine now positions (cid :: rest) expired)
      (.examine now positions rest expired)
  | done {now : Int} {positions : AList fun _ : Str => Position} :
    Sweeps s order (.getBook now positions []) .idle
  | unseen {now : Int} {positions : AList fun _ : Str => Position} {cid : Str}
    {rest : List Str} :
    positions.lookup cid = none →
    Sweeps s order (.getBook now positions (cid :: rest)) (.getBook now positions rest)
  | seen {now : Int} {positions : AList fun _ : Str => Position} {cid : Str} {rest : List Str}
    {pos : Position} :
    positions.lookup cid = some pos →
    Sweeps s order (.getBook now positions (cid :: rest))
      (.sell now positions cid pos.shares (sweepPrice pos (s.books.getBook cid)) rest)

/-- All that a step of a sweep can do. -/
inductive Turns (s : System) (now : Int) (order : List Str) : System → Prop
  | sweeps {main next : Sweep} :
    s.main = main → Sweeps s order main next → Turns s now order { s with main := next }
  | clock :
    s.main = .clock → s.clock ≤ now →
    Turns s now order { s with clock := now, main := .snapshot now }
  | sell {read : Int} {positions : AList fun _ : Str => Position} {cid : Str}
    {shares exitPx : ℚ} {rest : List Str} :
    s.main = .sell read positions cid shares exitPx rest →
    Turns s now order
      { s with
        gateway := s.gateway.sell cid shares exitPx
        main := .getBook read positions rest }

theorem of_readClock {s t : System} {now : Int} {f : System → System}
    (step : (s.readClock now).map f = some t) :
    s.clock ≤ now ∧ t = f { s with clock := now } := by
  unfold readClock at step
  split at step
  · rename_i later
    exact ⟨later, (Option.some.inj step).symm⟩
  · cases step

theorem ticks_of_stepOnTick {engine : StrategyEngine} {s s' : System} {now : Int}
    (step : s.stepOnTick engine now = some s') : s.Ticks engine now s' := by
  unfold stepOnTick at step
  cases state : s.ws with
  | idle =>
      rw [state] at step
      cases step
  | getBook cid =>
      rw [state] at step
      dsimp only at step
      split at step <;> cases step
      · exact .looks state (.noBook ‹_›)
      · exact .looks state (.book ‹_›)
  | clock cid bk =>
      rw [state] at step
      obtain ⟨later, rfl⟩ := of_readClock step
      exact .clock state later
  | hasPosition cid bk read =>
      rw [state] at step
      dsimp only at step
      split at step <;> cases step
      · exact .looks state (.held ‹_›)
      · exact .looks state (.vacant (Bool.eq_false_iff.mpr ‹_›))
  | entryMeta cid bk read =>
      rw [state] at step
      dsimp only at step
      split at step <;> cases step
      · exact .looks state (.tooLate ‹_›)
      · exact .looks state (.inTime (Bool.eq_false_iff.mpr ‹_›))
  | checkCapital cid bk info =>
      rw [state] at step
      dsimp only at step
      split at step <;> cases step
      · exact .looks state (.tooDear ‹_›)
      · exact .looks state (.enough (not_lt.mp ‹_›))
  | size cid bk info =>
      rw [state] at step
      dsimp only at step
      split at step
      · split at step <;> cases step
        · refine .looks state (.unnamed (fun known mem => ?_) rfl)
          cases mem
          assumption
        · exact .looks state (.named ‹_› rfl)
      · cases step
        exact .looks state (.unnamed nofun rfl)
  | refetchMeta cid info shares fillPx =>
      rw [state] at step
      cases step
      exact .looks state (.refetched rfl)
  | buy cid question shares fillPx =>
      rw [state] at step
      obtain ⟨later, rfl⟩ := of_readClock step
      exact .buy state later
  | exitMeta cid bk read =>
      rw [state] at step
      dsimp only at step
      split at step <;> cases step
      · exact .looks state (.expiring ‹_›)
      · exact .looks state (.staying (Bool.eq_false_iff.mpr ‹_›))
  | snapshot cid bk =>
      rw [state] at step
      dsimp only at step
      split at step <;> cases step
      · exact .looks state (.gone ‹_›)
      · exact .looks state (.found ‹_›)
  | sell cid shares fillPx =>
      rw [state] at step
      cases step
      exact .sell state

theorem turns_of_stepSweep {s s' : System} {now : Int} {order : List Str}
    (step : s.stepSweep now order = some s') : s.Turns now order s' := by
  unfold stepSweep at step
  cases state : s.main with
  | idle =>
      rw [state] at step
      cases step
  | clock =>
      rw [state] at step
      obtain ⟨later, rfl⟩ := of_readClock step
      exact .clock state later
  | snapshot read =>
      rw [state] at step
      dsimp only at step
      split at step <;> cases step
      exact .sweeps state (.snapshot ‹_›)
  | examine read positions remaining expired =>
      rw [state] at step
      cases remaining with
      | nil =>
          cases step
          exact .sweeps state .examined
      | cons cid rest =>
          dsimp only at step
          split at step <;> cases step
          · exact .sweeps state (.expiring ‹_›)
          · exact .sweeps state (.staying (Bool.eq_false_iff.mpr ‹_›))
  | getBook read positions expired =>
      rw [state] at step
      cases expired with
      | nil =>
          cases step
          exact .sweeps state .done
      | cons cid rest =>
          dsimp only at step
          split at step <;> cases step
          · exact .sweeps state (.unseen ‹_›)
          · exact .sweeps state (.seen ‹_›)
  | sell read positions cid shares exitPx rest =>
      rw [state] at step
      cases step
      exact .sell state

end System

end Tickscope.Bot
