import Mathlib.Algebra.Notation.Defs
import Tickscope.Coinbase.BtcJournal
import Tickscope.Lib.OnDemand

/-!
# The Coinbase feed

`CoinbaseFeed::on_message` of `src/coinbase/CoinbaseFeed.cpp`: a ticker message with a bid and an
ask becomes one record, stamped with the clock of the host. `mid_` is the `mid` of the record.
-/

namespace Tickscope.Coinbase

open Tickscope.Lib Tickscope.Lib.OnDemand

/-- `MAX_PAYLOAD`. -/
def maxPayload : Nat := 4 * 1024

variable {D : Type} [Zero D] [Add D] [Div D] [OfNat D 2] [LE D] [DecidableLE D]

/-- The quote of a ticker message. -/
def ticker (json : Simdjson D) (obj : Fields) : Option (D × D) :=
  match json.getString (field obj (ascii "type")) with
  | .error _ => none
  | .ok msgType =>
      if msgType ≠ ascii "ticker" then none
      else
        match json.getDoubleInString (field obj (ascii "best_bid")) with
        | .error _ => none
        | .ok bid =>
            match json.getDoubleInString (field obj (ascii "best_ask")) with
            | .error _ => none
            | .ok ask => if bid ≤ 0 ∨ ask ≤ 0 then none else some (bid, ask)

/-- `on_message`; `nowMs` is what `now_ms()` returns. -/
def onMessage (json : Simdjson D) (nowMs : BitVec 64) (payload : Str) : Option (BtcTick D) :=
  if payload = [] ∨ maxPayload < payload.length then none
  else
    match getObject (json.iterate payload) with
    | .error _ => none
    | .ok obj =>
        (ticker json obj).map fun quote =>
          { timestamp := nowMs
            bid := quote.1
            ask := quote.2
            mid := (quote.1 + quote.2) / 2 }

/-- A record carries the clock of the host. -/
theorem timestamp_onMessage {json : Simdjson D} {nowMs : BitVec 64} {payload : Str}
    {tick : BtcTick D} (accepted : onMessage json nowMs payload = some tick) :
    tick.timestamp = nowMs := by
  unfold onMessage at accepted
  split at accepted
  · cases accepted
  · split at accepted
    · cases accepted
    · obtain ⟨quote, -, rfl⟩ := Option.map_eq_some_iff.mp accepted
      rfl

end Tickscope.Coinbase
