import Mathlib.Algebra.Order.Field.Rat
import Mathlib.Data.BitVec
import Tickscope.Coinbase.CoinbaseFeed
import Tickscope.Feedhandler.Feedhandler
import Tickscope.Lib.Lists

/-!
# Two feeds and two clocks

The harvesters' ticks are joined on their timestamps. `CoinbaseFeed::on_message` takes them from
the clock of the host, `parse_and_push` from the message, where the sender has put them.
`shared_clock_iff` says when the records of the two feeds are in the order of receipt.
-/

namespace Tickscope.Coinbase

open Tickscope.Lib Tickscope.Lib.OnDemand Tickscope.Feedhandler

variable {D : Type} [Zero D] [Add D] [Div D] [OfNat D 2] [LE D] [DecidableLE D]

/-- A message that the host receives, with the clock of the host. -/
inductive Arrival where
  | polymarket (nowMs : BitVec 64) (payload : Str)
  | coinbase (nowMs : BitVec 64) (payload : Str)

namespace Arrival

def nowMs : Arrival → BitVec 64
  | .polymarket nowMs _ => nowMs
  | .coinbase nowMs _ => nowMs

def isPolymarket : Arrival → Bool
  | .polymarket .. => true
  | .coinbase .. => false

/-- The timestamps of the message's records. -/
def stamps (json : Simdjson D) : Arrival → List (BitVec 64)
  | .polymarket _ payload => (parseAndPush json payload).out.map Core.Tick.timestamp
  | .coinbase nowMs payload => ((Coinbase.onMessage json nowMs payload).map BtcTick.timestamp).toList

/-- The clock of the host at an accepted ticker message. -/
def tickerClock (json : Simdjson D) : Arrival → Option (BitVec 64)
  | .polymarket .. => none
  | .coinbase nowMs payload => (Coinbase.onMessage json nowMs payload).map fun _ => nowMs

end Arrival

/-- The clock of the host never goes backwards. -/
def NeverBackwards (arrivals : List Arrival) : Prop :=
  arrivals.Pairwise fun x y => x.nowMs ≤ y.nowMs

/-- Records of the two feeds are stamped in the order in which their messages are received. -/
def SharedClock (json : Simdjson D) (arrivals : List Arrival) : Prop :=
  arrivals.Pairwise fun x y => x.isPolymarket ≠ y.isPolymarket →
    ∀ a ∈ x.stamps json, ∀ b ∈ y.stamps json, a ≤ b

/-- The sender's clock in an accepted Polymarket message is not before the host's at the last
accepted ticker that came earlier, and not after the host's at the first that came later. -/
def SenderAgrees (json : Simdjson D) (arrivals : List Arrival) : Prop :=
  ∀ before nowMs payload after sent, arrivals = before ++ .polymarket nowMs payload :: after →
    (parseAndPush json payload).out ≠ [] → senderTimestamp json payload = some sent →
      (∀ c ∈ (before.filterMap (Arrival.tickerClock json)).getLast?, c ≤ sent) ∧
        ∀ c ∈ (after.filterMap (Arrival.tickerClock json)).head?, sent ≤ c

/-! ## Timestamps of the two feeds -/

namespace Arrival

/-- A message of the other feed has one timestamp, the sender's, if any. -/
theorem mem_stamps_polymarket {json : Simdjson D} {nowMs : BitVec 64} {payload : Str}
    {a : BitVec 64} :
    a ∈ stamps json (.polymarket nowMs payload) ↔
      (parseAndPush json payload).out ≠ [] ∧ senderTimestamp json payload = some a := by
  constructor
  · intro mem
    obtain ⟨tick, pushed, rfl⟩ := List.mem_map.mp mem
    exact ⟨List.ne_nil_of_mem pushed, timestamp_parseAndPush pushed⟩
  · rintro ⟨accepted, sent⟩
    obtain ⟨tick, mem⟩ := List.exists_mem_of_ne_nil _ accepted
    have same := (timestamp_parseAndPush mem).symm.trans sent
    cases same
    exact List.mem_map_of_mem mem

theorem mem_stamps_coinbase {json : Simdjson D} {x : Arrival} (other : x.isPolymarket = false)
    {b : BitVec 64} : b ∈ stamps json x ↔ x.tickerClock json = some b := by
  cases x with
  | polymarket => cases other
  | coinbase nowMs payload =>
      rw [stamps, tickerClock, Option.mem_toList, Option.map_eq_some_iff, Option.map_eq_some_iff]
      refine exists_congr fun tick => and_congr_right fun accepted => ?_
      rw [timestamp_onMessage accepted]

theorem nowMs_of_tickerClock {json : Simdjson D} {x : Arrival} {c : BitVec 64}
    (clock : x.tickerClock json = some c) : x.isPolymarket = false ∧ x.nowMs = c := by
  cases x with
  | polymarket => cases clock
  | coinbase nowMs payload =>
      obtain ⟨tick, -, rfl⟩ := Option.map_eq_some_iff.mp clock
      exact ⟨rfl, rfl⟩

end Arrival

/-! ## The nearest tickers -/

/-- The tickers' clocks are in order. -/
theorem NeverBackwards.tickerClocks {arrivals : List Arrival} (forward : NeverBackwards arrivals)
    (json : Simdjson D) :
    (arrivals.filterMap (Arrival.tickerClock json)).Pairwise (· ≤ ·) := by
  refine List.Pairwise.filterMap _ ?_ forward
  intro x y le c clock c' clock'
  rw [← (Arrival.nowMs_of_tickerClock clock).2, ← (Arrival.nowMs_of_tickerClock clock').2]
  exact le

theorem mem_tickerClocks {json : Simdjson D} {arrivals : List Arrival} {c : BitVec 64} :
    c ∈ arrivals.filterMap (Arrival.tickerClock json) ↔
      ∃ x ∈ arrivals, x.isPolymarket = false ∧ c ∈ x.stamps json := by
  rw [List.mem_filterMap]
  refine exists_congr fun x => and_congr_right fun _ => ?_
  constructor
  · intro clock
    have other := (Arrival.nowMs_of_tickerClock clock).1
    exact ⟨other, (Arrival.mem_stamps_coinbase other).mpr clock⟩
  · rintro ⟨other, mem⟩
    exact (Arrival.mem_stamps_coinbase other).mp mem

/-- **Two feeds share the host's clock** exactly if the sender's clock agrees with it around every
accepted Polymarket message. -/
theorem shared_clock_iff (json : Simdjson D) (arrivals : List Arrival)
    (forward : NeverBackwards arrivals) :
    SharedClock json arrivals ↔ SenderAgrees json arrivals := by
  rw [SharedClock, pairwise_ne_iff Arrival.isPolymarket]
  constructor
  · intro shared before nowMs payload after sent split accepted sender
    have stamped : sent ∈ Arrival.stamps json (.polymarket nowMs payload) :=
      Arrival.mem_stamps_polymarket.mpr ⟨accepted, sender⟩
    obtain ⟨earlier, later⟩ := shared before _ after split rfl
    refine ⟨fun c last => ?_, fun c first => ?_⟩
    · obtain ⟨x, mem, other, clock⟩ := mem_tickerClocks.mp (List.mem_of_getLast? last)
      exact earlier x mem other c clock sent stamped
    · obtain ⟨x, mem, other, clock⟩ := mem_tickerClocks.mp (List.mem_of_head? first)
      exact later x mem other sent stamped c clock
  · intro agrees before x after split kind
    cases x with
    | coinbase => cases kind
    | polymarket nowMs payload =>
        rw [split] at forward
        rcases List.pairwise_append.mp forward with ⟨left, right, -⟩
        refine ⟨fun y mem other a stamp b stamped => ?_, fun y mem other b stamped a stamp => ?_⟩
        · rcases Arrival.mem_stamps_polymarket.mp stamped with ⟨accepted, sender⟩
          obtain ⟨c, last, le⟩ := exists_getLast?_of_pairwise (fun _ => BitVec.le_refl _)
            (NeverBackwards.tickerClocks left json) (mem_tickerClocks.mpr ⟨y, mem, other, stamp⟩)
          exact BitVec.le_trans le ((agrees _ _ _ _ b split accepted sender).1 c last)
        · rcases Arrival.mem_stamps_polymarket.mp stamped with ⟨accepted, sender⟩
          obtain ⟨c, first, le⟩ := exists_head?_of_pairwise (fun _ => BitVec.le_refl _)
            (NeverBackwards.tickerClocks (List.pairwise_cons.mp right).2 json)
            (mem_tickerClocks.mpr ⟨y, mem, other, stamp⟩)
          exact BitVec.le_trans ((agrees _ _ _ _ b split accepted sender).2 c first) le

/-! ## A ticker and a trade -/

def tickerText : Str := ascii "\x7b\"type\":\"ticker\",\"best_bid\":\"1\",\"best_ask\":\"1\"\x7d"

/-- A trade with the sender's clock at 990. -/
def tradeText : Str :=
  ascii "\x7b\"event_type\":\"last_trade_price\",\"timestamp\":\"990\",\"asset_id\":\"7\"," ++
    ascii "\"price\":\"1\",\"size\":\"1\",\"side\":\"BUY\"\x7d"

def tickerFields : Fields :=
  [(ascii "type", .ok (.string (ascii "ticker"))),
    (ascii "best_bid", .ok (.string (ascii "1"))),
    (ascii "best_ask", .ok (.string (ascii "1")))]

def tradeFields : Fields :=
  [(ascii "event_type", .ok (.string (ascii "last_trade_price"))),
    (ascii "timestamp", .ok (.string (ascii "990"))),
    (ascii "asset_id", .ok (.string (ascii "7"))),
    (ascii "price", .ok (.string (ascii "1"))),
    (ascii "size", .ok (.string (ascii "1"))),
    (ascii "side", .ok (.string (ascii "BUY")))]

/-- A parser that knows these two texts. -/
def twoTextsJson : Simdjson ℚ where
  iterate text :=
    if text = tickerText then .ok (.object tickerFields)
    else if text = tradeText then .ok (.object tradeFields)
    else .error (.parse 3)
  unescape := .ok
  uint64InString raw := if raw = ascii "990" then .ok 990 else .error (.parse 9)
  doubleInString raw := if raw = ascii "1" then .ok 1 else .error (.parse 9)

theorem stamps_tickerText (nowMs : BitVec 64) :
    Arrival.stamps twoTextsJson (.coinbase nowMs tickerText) = [nowMs] := rfl

theorem stamps_tradeText (nowMs : BitVec 64) :
    Arrival.stamps twoTextsJson (.polymarket nowMs tradeText) = [990] := rfl

/-- The sender's clock is between the readings of the host's around the trade. -/
theorem shared_clock_agrees :
    SenderAgrees twoTextsJson [.coinbase 980 tickerText, .polymarket 1001 tradeText,
      .coinbase 1002 tickerText] := by
  refine (shared_clock_iff twoTextsJson _ ?_).mp ?_
  · simp [NeverBackwards, Arrival.nowMs]
  · simp [SharedClock, Arrival.isPolymarket, stamps_tickerText, stamps_tradeText]

/-- The ticker is received first and stamped later. -/
theorem shared_clock_fails_behind :
    NeverBackwards [.coinbase 1000 tickerText, .polymarket 1001 tradeText] ∧
      ¬ SharedClock twoTextsJson [.coinbase 1000 tickerText, .polymarket 1001 tradeText] ∧
      Arrival.stamps twoTextsJson (.coinbase 1000 tickerText) = [1000] ∧
      Arrival.stamps twoTextsJson (.polymarket 1001 tradeText) = [990] := by
  refine ⟨?_, ?_, stamps_tickerText 1000, stamps_tradeText 1001⟩
  · simp [NeverBackwards, Arrival.nowMs]
  · simp [SharedClock, Arrival.isPolymarket, stamps_tickerText, stamps_tradeText]

end Tickscope.Coinbase
