import Mathlib.Algebra.Notation.Defs
import Tickscope.Core.Tick
import Tickscope.Lib.OnDemand

/-!
# The harvester's feed handler

`src/feedhandler/Feedhandler.cpp` and the Message callback of `src/gateway/WebSocketClient.cpp`.
The output of a call are the ticks that it hands to `try_produce`, in order; whether the ring has
room changes only what is logged.
-/

namespace Tickscope.Feedhandler

open Tickscope.Core Tickscope.Lib Tickscope.Lib.OnDemand

/-- `MAX_PAYLOAD_BYTES`. -/
def maxPayloadBytes : Nat := 64 * 1024

variable {D : Type}

/-- `copy_asset_id` into a tick that is all zero. -/
def copyAssetId (sv : Str) : AssetId where
  bytes := sv.take 79 ++ List.replicate (80 - (sv.take 79).length) 0
  length_eq := by
    rw [List.length_append, List.length_replicate, List.length_take]
    omega
  terminated := by
    refine List.mem_append_right _ (List.mem_replicate.mpr ⟨?_, rfl⟩)
    rw [List.length_take]
    omega

/-- `(side_sv == "BUY") ? 0u : 1u`. -/
def sideOf (sideSv : Str) : UInt8 := if sideSv = ascii "BUY" then 0 else 1

/-- The optional fields keep the 0.0 of a fresh tick when they cannot be read. -/
def optionalDouble [Zero D] (json : Simdjson D) (value : Result Value) : D :=
  match json.getDoubleInString value with
  | .ok x => x
  | .error _ => 0

/-- The body of the loop over `price_changes`: one tick, or none where it continues. -/
def leg [Zero D] (json : Simdjson D) (timestamp : BitVec 64) (change : Fields) : List (Tick D) :=
  match json.getString (field change (ascii "asset_id")) with
  | .error _ => []
  | .ok assetId =>
      match json.getDoubleInString (field change (ascii "price")) with
      | .error _ => []
      | .ok price =>
          match json.getDoubleInString (field change (ascii "size")) with
          | .error _ => []
          | .ok size =>
              match json.getString (field change (ascii "side")) with
              | .error _ => []
              | .ok side =>
                  [{  timestamp := timestamp
                      price := price
                      size := size
                      bestBid := optionalDouble json (field change (ascii "best_bid"))
                      bestAsk := optionalDouble json (field change (ascii "best_ask"))
                      side := sideOf side
                      eventType := 0
                      assetId := copyAssetId assetId }]

/-- The branch for `last_trade_price`. -/
def lastTrade [Zero D] (json : Simdjson D) (obj : Fields) : List (Tick D) :=
  match json.getUint64InString (field obj (ascii "timestamp")) with
  | .error _ => []
  | .ok timestamp =>
      match json.getString (field obj (ascii "asset_id")) with
      | .error _ => []
      | .ok assetId =>
          match json.getDoubleInString (field obj (ascii "price")) with
          | .error _ => []
          | .ok price =>
              match json.getDoubleInString (field obj (ascii "size")) with
              | .error _ => []
              | .ok size =>
                  match json.getString (field obj (ascii "side")) with
                  | .error _ => []
                  | .ok side =>
                      [{  timestamp := timestamp
                          price := price
                          size := size
                          bestBid := 0
                          bestAsk := 0
                          side := sideOf side
                          eventType := 1
                          assetId := copyAssetId assetId }]

/-- The legs that the branch for `price_change` will walk over, with the shared timestamp. -/
def priceChanges (json : Simdjson D) (obj : Fields) : Option (BitVec 64 × List (Result Value)) :=
  match json.getUint64InString (field obj (ascii "timestamp")) with
  | .error _ => none
  | .ok timestamp =>
      match getArray (field obj (ascii "price_changes")) with
      | .error _ => none
      | .ok changes => some (timestamp, changes)

/-- `parse_and_push`. A snapshot, which is an array, is skipped. -/
def parseAndPush [Zero D] (json : Simdjson D) (msg : Str) : Ran (Tick D) :=
  match getObject (json.iterate msg) with
  | .error _ => .done []
  | .ok obj =>
      match json.getString (field obj (ascii "event_type")) with
      | .error _ => .done []
      | .ok eventType =>
          if eventType = ascii "price_change" then
            match priceChanges json obj with
            | none => .done []
            | some (timestamp, changes) =>
                forObjects (fun change => .ok (leg json timestamp change)) changes
          else if eventType = ascii "last_trade_price" then .done (lastTrade json obj)
          else .done []

/-- The Message callback: an oversized payload is dropped. -/
def onMessage [Zero D] (json : Simdjson D) (payload : Str) : Ran (Tick D) :=
  if maxPayloadBytes < payload.length then .done [] else parseAndPush json payload

/-! ## When nothing is thrown -/

/-- A `price_change` with a timestamp and with an array of legs has objects only in it. -/
def LegsConvert (json : Simdjson D) (msg : Str) : Prop :=
  ∀ obj timestamp changes, json.iterate msg = .ok (.object obj) →
    json.getString (field obj (ascii "event_type")) = .ok (ascii "price_change") →
    priceChanges json obj = some (timestamp, changes) → ∀ change ∈ changes, IsObject change

theorem parseAndPush_thrown [Zero D] (json : Simdjson D) (msg : Str) :
    (parseAndPush json msg).thrown = none ↔ LegsConvert json msg := by
  unfold parseAndPush LegsConvert
  cases document : getObject (json.iterate msg) with
  | error e =>
      refine ⟨fun _ obj timestamp changes isObject => ?_, fun _ => rfl⟩
      rw [getObject_eq_ok.mpr isObject] at document
      cases document
  | ok obj =>
      have isObject := getObject_eq_ok.mp document
      dsimp only
      split
      · rename_i e failed
        refine ⟨fun _ obj' timestamp changes isObject' read => ?_, fun _ => rfl⟩
        cases isObject.symm.trans isObject'
        cases failed.symm.trans read
      · rename_i eventType read
        split
        · rename_i priceChange
          split
          · rename_i none_
            refine ⟨fun _ obj' timestamp changes isObject' _ found => ?_, fun _ => rfl⟩
            cases isObject.symm.trans isObject'
            cases none_.symm.trans found
          · rename_i timestamp changes found
            rw [forObjects_thrown_total]
            constructor
            · intro all obj' timestamp' changes' isObject' _ found'
              cases isObject.symm.trans isObject'
              cases found.symm.trans found'
              exact all
            · intro all
              exact all obj timestamp changes isObject (priceChange ▸ read) found
        · rename_i other
          constructor
          · intro _ obj' timestamp changes isObject' read'
            cases isObject.symm.trans isObject'
            cases read.symm.trans read'
            exact (other rfl).elim
          · intro _
            split <;> rfl

/-- The callback returns normally exactly when the payload is oversized or its legs convert. -/
theorem onMessage_thrown [Zero D] (json : Simdjson D) (payload : Str) :
    (onMessage json payload).thrown = none ↔
      (payload.length ≤ maxPayloadBytes → LegsConvert json payload) := by
  unfold onMessage
  split
  · rename_i large
    exact ⟨fun _ small => absurd small (Nat.not_le_of_lt large), fun _ => rfl⟩
  · rename_i small
    rw [parseAndPush_thrown]
    exact ⟨fun convert _ => convert, fun convert => convert (Nat.le_of_not_lt small)⟩

/-! ## Where a timestamp is taken -/

/-- The sender's clock in a Polymarket message. -/
def senderTimestamp (json : Simdjson D) (msg : Str) : Option (BitVec 64) :=
  match getObject (json.iterate msg) with
  | .error _ => none
  | .ok obj => (json.getUint64InString (field obj (ascii "timestamp"))).toOption

/-- Every leg carries the timestamp of the message. -/
theorem timestamp_leg [Zero D] {json : Simdjson D} {timestamp : BitVec 64} {change : Fields}
    {tick : Core.Tick D} (mem : tick ∈ leg json timestamp change) : tick.timestamp = timestamp := by
  unfold leg at mem
  split at mem
  · cases mem
  · split at mem
    · cases mem
    · split at mem
      · cases mem
      · split at mem
        · cases mem
        · rw [List.mem_singleton.mp mem]

theorem timestamp_lastTrade [Zero D] {json : Simdjson D} {obj : Fields} {tick : Core.Tick D}
    (mem : tick ∈ lastTrade json obj) :
    json.getUint64InString (field obj (ascii "timestamp")) = .ok tick.timestamp := by
  unfold lastTrade at mem
  split at mem
  · cases mem
  · rename_i timestamp read
    split at mem
    · cases mem
    · split at mem
      · cases mem
      · split at mem
        · cases mem
        · split at mem
          · cases mem
          · rw [List.mem_singleton.mp mem]
            exact read

theorem timestamp_of_priceChanges {json : Simdjson D} {obj : Fields} {timestamp : BitVec 64}
    {changes : List (Result Value)} (found : priceChanges json obj = some (timestamp, changes)) :
    json.getUint64InString (field obj (ascii "timestamp")) = .ok timestamp := by
  unfold priceChanges at found
  split at found
  · cases found
  · split at found <;> cases found
    assumption

/-- **A Polymarket record carries the clock of the sender.** -/
theorem timestamp_parseAndPush [Zero D] {json : Simdjson D} {msg : Str} {tick : Core.Tick D}
    (mem : tick ∈ (parseAndPush json msg).out) :
    senderTimestamp json msg = some tick.timestamp := by
  unfold parseAndPush at mem
  unfold senderTimestamp
  split at mem
  · cases mem
  · rename_i obj _
    split at mem
    · cases mem
    · split at mem
      · split at mem
        · cases mem
        · rename_i timestamp changes found
          obtain ⟨change, out, ran, mem⟩ := mem_forObjects mem
          cases ran
          rw [timestamp_leg mem, timestamp_of_priceChanges found]
          rfl
      · split at mem
        · rw [timestamp_lastTrade mem]
          rfl
        · cases mem

end Tickscope.Feedhandler
