import Tickscope.Lib.Str

/-!
# Ticks

`include/polymarket/core/Tick.hpp`. A `double` is a value of a type `D` of which
a module asks only what it uses. The asset id is the array the source declares,
with the terminator that `std::string_view` relies on.
-/

namespace Tickscope.Core

open Tickscope.Lib

/-- `char asset_id[80]` holding a NUL-terminated string. -/
structure AssetId where
  bytes : List UInt8
  length_eq : bytes.length = 80
  terminated : 0 ∈ bytes

/-- `std::string_view{tick.asset_id}`: the bytes before the first NUL. -/
def AssetId.key (id : AssetId) : Str := id.bytes.takeWhile (· ≠ 0)

/-- One normalised event of the feed. -/
structure Tick (D : Type) where
  timestamp : BitVec 64
  price : D
  size : D
  bestBid : D
  bestAsk : D
  /-- 0 = BID ("BUY"), 1 = ASK ("SELL") -/
  side : UInt8
  /-- 0 = price_change, 1 = last_trade_price -/
  eventType : UInt8
  assetId : AssetId

def Tick.key {D : Type} (tick : Tick D) : Str := tick.assetId.key

end Tickscope.Core
