import Mathlib.Algebra.Order.Field.Rat
import Tickscope.Feedhandler.Feedhandler
import Tickscope.Memory.RingRoom
import Tickscope.Tickerplant.Run

/-!
# The reference decoder

What a Polymarket message says, read off a dictionary: `decode`. `matches_decoder` says that
`parse_and_push` appends exactly these ticks to a ring that has room for them.
-/

namespace Tickscope.Feedhandler

open Tickscope.Core Tickscope.Lib Tickscope.Lib.OnDemand

variable {D : Type}

/-! ## The decoder -/

/-- A text in `char[80]`: its first 79 bytes, and zeros. -/
def charArray (text : Str) : AssetId where
  bytes := (List.range 80).map fun i => if i < 79 then text.getD i 0 else 0
  length_eq := by rw [List.length_map, List.length_range]
  terminated := List.mem_map.mpr ⟨79, List.mem_range.mpr (by decide), rfl⟩

/-- A leg of a `price_change`, if it has what a leg must have. -/
def decodeLeg [Zero D] (json : Simdjson D) (timestamp : BitVec 64) (leg : Fields) :
    Option (Tick D) := do
  let assetId ← inText json.unescape leg (ascii "asset_id")
  let price ← inText json.doubleInString leg (ascii "price")
  let size ← inText json.doubleInString leg (ascii "size")
  let side ← inText json.unescape leg (ascii "side")
  some
    { timestamp := timestamp
      price := price
      size := size
      bestBid := (inText json.doubleInString leg (ascii "best_bid")).getD 0
      bestAsk := (inText json.doubleInString leg (ascii "best_ask")).getD 0
      side := if side = ascii "BUY" then 0 else 1
      eventType := 0
      assetId := charArray assetId }

def decodeTrade [Zero D] (json : Simdjson D) (trade : Fields) : Option (Tick D) := do
  let timestamp ← inText json.uint64InString trade (ascii "timestamp")
  let assetId ← inText json.unescape trade (ascii "asset_id")
  let price ← inText json.doubleInString trade (ascii "price")
  let size ← inText json.doubleInString trade (ascii "size")
  let side ← inText json.unescape trade (ascii "side")
  some
    { timestamp := timestamp
      price := price
      size := size
      bestBid := 0
      bestAsk := 0
      side := if side = ascii "BUY" then 0 else 1
      eventType := 1
      assetId := charArray assetId }

/-- The legs of a `price_change`, each for itself. -/
def decodeLegs [Zero D] (json : Simdjson D) (obj : Fields) : List (Tick D) :=
  match inText json.uint64InString obj (ascii "timestamp"), member obj (ascii "price_changes") with
  | some timestamp, some (.array legs) =>
      legs.filterMap fun leg =>
        match leg with
        | .ok (.object leg) => decodeLeg json timestamp leg
        | _ => none
  | _, _ => []

def decode [Zero D] (json : Simdjson D) (obj : Fields) : List (Tick D) :=
  let eventType := inText json.unescape obj (ascii "event_type")
  if eventType = some (ascii "price_change") then decodeLegs json obj
  else if eventType = some (ascii "last_trade_price") then (decodeTrade json obj).toList
  else []

/-- The message is an object without a repeated key, and so is each of its legs. -/
structure WellFormed (json : Simdjson D) (msg : Str) (obj : Fields) : Prop where
  document : json.iterate msg = .ok (.object obj)
  distinct : Distinct obj
  legs : ∀ legs, member obj (ascii "price_changes") = some (.array legs) →
    ∀ leg ∈ legs, ∃ fields, leg = .ok (.object fields) ∧ Distinct fields

/-! ## The code against the decoder -/

theorem copyAssetId_eq (text : Str) : copyAssetId text = charArray text := by
  have bytes : (copyAssetId text).bytes = (charArray text).bytes := by
    refine List.ext_getElem ?_ fun i lt _ => ?_
    · rw [(copyAssetId text).length_eq, (charArray text).length_eq]
    · have lt' : i < 80 := (copyAssetId text).length_eq ▸ lt
      simp only [copyAssetId, charArray, List.getElem_append, List.getElem_take,
        List.getElem_replicate, List.length_take, List.getElem_map, List.getElem_range,
        List.getD_eq_getElem?_getD]
      by_cases inside : i < min 79 text.length
      · rw [dif_pos inside, if_pos (by omega), List.getElem?_eq_getElem (by omega)]
        rfl
      · rw [dif_neg inside]
        split
        · rw [List.getElem?_eq_none (by omega)]
          rfl
        · rfl
  unfold copyAssetId charArray at bytes ⊢
  congr

theorem leg_eq [Zero D] (json : Simdjson D) (timestamp : BitVec 64) {fields : Fields}
    (distinct : Distinct fields) :
    leg json timestamp fields = (decodeLeg json timestamp fields).toList := by
  unfold leg decodeLeg optionalDouble Simdjson.getString Simdjson.getDoubleInString
  simp only [← toOption_inString _ distinct, ← copyAssetId_eq]
  cases inString json.unescape (field fields (ascii "asset_id")) with
  | error e => rfl
  | ok assetId =>
      cases inString json.doubleInString (field fields (ascii "price")) with
      | error e => rfl
      | ok price =>
          cases inString json.doubleInString (field fields (ascii "size")) with
          | error e => rfl
          | ok size =>
              cases inString json.unescape (field fields (ascii "side")) with
              | error e => rfl
              | ok side =>
                  cases inString json.doubleInString (field fields (ascii "best_bid")) <;>
                    cases inString json.doubleInString (field fields (ascii "best_ask")) <;> rfl

theorem lastTrade_eq [Zero D] (json : Simdjson D) {obj : Fields} (distinct : Distinct obj) :
    lastTrade json obj = (decodeTrade json obj).toList := by
  unfold lastTrade decodeTrade Simdjson.getString Simdjson.getDoubleInString
    Simdjson.getUint64InString
  simp only [← toOption_inString _ distinct, ← copyAssetId_eq]
  cases inString json.uint64InString (field obj (ascii "timestamp")) with
  | error e => rfl
  | ok timestamp =>
      cases inString json.unescape (field obj (ascii "asset_id")) with
      | error e => rfl
      | ok assetId =>
          cases inString json.doubleInString (field obj (ascii "price")) with
          | error e => rfl
          | ok price =>
              cases inString json.doubleInString (field obj (ascii "size")) with
              | error e => rfl
              | ok size =>
                  cases inString json.unescape (field obj (ascii "side")) <;> rfl

/-- The timestamp and the legs that the code walks over are those of the dictionary. -/
theorem priceChanges_eq (json : Simdjson D) {obj : Fields} (distinct : Distinct obj) :
    priceChanges json obj =
      match inText json.uint64InString obj (ascii "timestamp"),
        member obj (ascii "price_changes") with
      | some timestamp, some (.array legs) => some (timestamp, legs)
      | _, _ => none := by
  rw [← toOption_inString _ distinct, ← toOption_field distinct]
  unfold priceChanges Simdjson.getUint64InString
  cases inString json.uint64InString (field obj (ascii "timestamp")) with
  | error e => rfl
  | ok timestamp =>
      cases field obj (ascii "price_changes") with
      | error e => rfl
      | ok value => cases value <;> rfl

theorem decodeLegs_eq [Zero D] {json : Simdjson D} {msg : Str} {obj : Fields}
    (wellFormed : WellFormed json msg obj) :
    (match priceChanges json obj with
      | none => Ran.done []
      | some (timestamp, changes) =>
          forObjects (fun change => .ok (leg json timestamp change)) changes) =
      Ran.done (decodeLegs json obj) := by
  rw [priceChanges_eq json wellFormed.distinct, decodeLegs]
  cases inText json.uint64InString obj (ascii "timestamp") with
  | none => rfl
  | some timestamp =>
      cases array : member obj (ascii "price_changes") with
      | none => rfl
      | some value =>
          cases value with
          | array legs =>
              have objects : ∀ leg ∈ legs, IsObject leg := fun leg mem =>
                (wellFormed.legs legs array leg mem).imp fun _ both => both.1
              have out := forObjects_out_total (leg json timestamp) objects
              have thrown := (forObjects_thrown_total (leg json timestamp) legs).mpr objects
              refine congr (congrArg Ran.mk (out.trans ?_)) thrown
              dsimp only
              rw [List.filterMap_eq_flatMap_toList]
              refine List.flatMap_congr fun element mem => ?_
              obtain ⟨fields, rfl, distinct⟩ := wellFormed.legs legs array element mem
              exact leg_eq json timestamp distinct
          | _ => rfl

/-- `parse_and_push` hands over what the decoder finds, and nothing is thrown. -/
theorem parseAndPush_eq [Zero D] {json : Simdjson D} {msg : Str} {obj : Fields}
    (wellFormed : WellFormed json msg obj) :
    parseAndPush json msg = .done (decode json obj) := by
  unfold parseAndPush decode Simdjson.getString
  rw [getObject_eq_ok.mpr wellFormed.document, ← toOption_inString _ wellFormed.distinct]
  dsimp only
  cases inString json.unescape (field obj (ascii "event_type")) with
  | error e => rfl
  | ok eventType =>
      show _ = Ran.done (if some eventType = some _ then _ else
        if some eventType = some _ then _ else [])
      simp only [Option.some_inj]
      by_cases priceChange : eventType = ascii "price_change"
      · rw [if_pos priceChange, if_pos priceChange]
        exact decodeLegs_eq wellFormed
      · rw [if_neg priceChange, if_neg priceChange]
        by_cases trade : eventType = ascii "last_trade_price"
        · rw [if_pos trade, if_pos trade, lastTrade_eq json wellFormed.distinct]
        · rw [if_neg trade, if_neg trade]

/-- **The parser against the decoder.** For a well-formed message and a ring with a free slot for
each tick, `parse_and_push` returns, and it has then appended the ticks of the decoder, in order,
whatever the consumer has done meanwhile. -/
theorem matches_decoder [Zero D] (json : Simdjson D) (msg : Str) (obj : Fields)
    (wellFormed : WellFormed json msg obj) (s : Tickerplant.Ring D) (reachable : s.TryReachable)
    (idle : s.producers () = .idle)
    (room : s.accepted.length + (decode json obj).length ≤ s.freed + Tickerplant.ringCapacity.size) :
    (parseAndPush json msg).thrown = none ∧ (∃ t, s.Pushes (parseAndPush json msg).out t) ∧
      ∀ t, s.Pushes (parseAndPush json msg).out t → t.accepted = s.accepted ++ decode json obj := by
  rw [parseAndPush_eq wellFormed]
  refine ⟨rfl, Memory.System.exists_pushes idle _, fun t pushes => ?_⟩
  exact (reachable.inv (by decide)).accepted_of_pushes (by decide) room pushes

/-- Two legs, the first of them without a price. -/
def twoLegs : Str :=
  ascii "\x7b\"timestamp\":\"7\",\"price_changes\":[\x7b\"asset_id\":\"1\"\x7d,\x7b" ++
    ascii "\"size\":\"7\",\"price\":\"7\",\"side\":\"BUY\",\"asset_id\":\"2\"\x7d]," ++
    ascii "\"event_type\":\"price_change\"\x7d"

def twoLegsFields : Fields :=
  let text (s : String) : Result Value := .ok (.string (ascii s))
  [(ascii "timestamp", text "7"),
    (ascii "price_changes", .ok (.array [.ok (.object [(ascii "asset_id", text "1")]),
      .ok (.object [(ascii "size", text "7"), (ascii "price", text "7"), (ascii "side", text "BUY"),
        (ascii "asset_id", text "2")])])),
    (ascii "event_type", text "price_change")]

/-- A parser that knows this one text. -/
def twoLegsJson : Simdjson ℚ where
  iterate text := if text = twoLegs then .ok (.object twoLegsFields) else .error (.parse 3)
  unescape := .ok
  uint64InString raw := if raw = ascii "7" then .ok 7 else .error (.parse 9)
  doubleInString raw := if raw = ascii "7" then .ok 7 else .error (.parse 9)

theorem twoLegs_wellFormed : WellFormed twoLegsJson twoLegs twoLegsFields where
  document := by simp only [twoLegsJson, if_true]
  distinct := by
    unfold Distinct
    decide +kernel
  legs := by
    intro legs found
    cases found
    intro leg mem
    rcases List.mem_cons.mp mem with rfl | mem
    · exact ⟨_, rfl, by unfold Distinct; decide +kernel⟩
    · rw [List.mem_singleton.mp mem]
      exact ⟨_, rfl, by unfold Distinct; decide +kernel⟩

/-- A ring in its first state, with ticks of zeros in its slots. -/
def zeroRing : Tickerplant.Ring ℚ := .new fun _ => ⟨0, 0, 0, 0, 0, 0, 0, charArray []⟩

/-- The second leg gives a tick. -/
theorem matches_decoder_two_legs :
    (decode twoLegsJson twoLegsFields).map (fun tick => (tick.key, tick.price, tick.bestBid)) =
      [(ascii "2", 7, 0)] ∧
    (parseAndPush twoLegsJson twoLegs).thrown = none ∧
      (∃ t, zeroRing.Pushes (parseAndPush twoLegsJson twoLegs).out t) ∧
      ∀ t, zeroRing.Pushes (parseAndPush twoLegsJson twoLegs).out t →
        t.accepted = zeroRing.accepted ++ decode twoLegsJson twoLegsFields := by
  have ticks : (decode twoLegsJson twoLegsFields).map
      (fun tick => (tick.key, tick.price, tick.bestBid)) = [(ascii "2", 7, 0)] := by
    decide +kernel
  have one : (decode twoLegsJson twoLegsFields).length = 1 := by
    rw [← List.length_map, ticks]
    rfl
  refine ⟨ticks, matches_decoder twoLegsJson twoLegs twoLegsFields twoLegs_wellFormed zeroRing
    ⟨_, [], nofun, rfl⟩ rfl ?_⟩
  rw [one]
  show 0 + 1 ≤ 0 + 65536
  decide

end Tickscope.Feedhandler
