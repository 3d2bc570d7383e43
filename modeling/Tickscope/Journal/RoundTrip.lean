import Mathlib.Data.BitVec
import Tickscope.Feedhandler.Feedhandler
import Tickscope.Journal.LogToParquet

/-!
# What the decoder makes of a journal

The records of a journal come back as they were enqueued, unless one of them makes the decoder
raise: a timestamp beyond the nanoseconds of an `int64`, an asset id whose 79 bytes end inside a
character or are no text at all, or something behind its terminator. Then no record comes back.
`journal_decodes_iff` says this of all journals of enqueued ticks.
-/

namespace Tickscope.Journal

open Tickscope.Backtest Tickscope.Core Tickscope.Feedhandler Tickscope.Lib Tickscope.Lib.OnDemand

variable {D : Type}

/-! ## Ticks that are enqueued -/

/-- `parse_and_push` hands this tick to the ring for some message. -/
def Enqueued [Zero D] (json : Simdjson D) (tick : Tick D) : Prop :=
  ∃ msg, tick ∈ (parseAndPush json msg).out

/-- The labels of a tick are those that its comments list. -/
def Labelled (tick : Tick D) : Prop :=
  (tick.side = 0 ∨ tick.side = 1) ∧ (tick.eventType = 0 ∨ tick.eventType = 1)

theorem sideOf_cases (sideSv : Str) : sideOf sideSv = 0 ∨ sideOf sideSv = 1 := by
  unfold sideOf
  split
  · exact .inl rfl
  · exact .inr rfl

theorem labelled_of_mem_leg [Zero D] {json : Simdjson D} {timestamp : BitVec 64} {change : Fields}
    {tick : Tick D} (mem : tick ∈ leg json timestamp change) : Labelled tick := by
  unfold leg at mem
  repeat' split at mem
  all_goals first
    | cases mem; done
    | (rw [List.mem_singleton] at mem
       rw [mem]
       exact ⟨sideOf_cases _, .inl rfl⟩)

theorem labelled_of_mem_lastTrade [Zero D] {json : Simdjson D} {obj : Fields} {tick : Tick D}
    (mem : tick ∈ lastTrade json obj) : Labelled tick := by
  unfold lastTrade at mem
  repeat' split at mem
  all_goals first
    | cases mem; done
    | (rw [List.mem_singleton] at mem
       rw [mem]
       exact ⟨sideOf_cases _, .inr rfl⟩)

theorem Enqueued.labelled [Zero D] {json : Simdjson D} {tick : Tick D}
    (enqueued : Enqueued json tick) : Labelled tick := by
  rcases enqueued with ⟨msg, mem⟩
  unfold parseAndPush at mem
  split at mem
  · cases mem
  · split at mem
    · cases mem
    · split at mem
      · split at mem
        · cases mem
        · rcases mem_forObjects mem with ⟨change, out, ran, mem⟩
          cases ran
          exact labelled_of_mem_leg mem
      · split at mem
        · exact labelled_of_mem_lastTrade mem
        · cases mem

/-! ## One record -/

/-- The number that `SIDE_MAP` shows as this label. -/
def sideCode : Side → UInt8
  | .bid => 0
  | .ask => 1

/-- The number that `EVENT_TYPE_MAP` shows as this label. -/
def eventTypeCode : EventType → UInt8
  | .priceChange => 0
  | .lastTrade => 1

/-- The row has every field of the tick, the asset id up to its terminator. -/
structure Shows (row : Row D) (tick : Tick D) : Prop where
  timestamp : row.timestampNs = tick.timestamp.toNat * 10 ^ 6
  price : row.price = tick.price
  size : row.size = tick.size
  bestBid : row.bestBid = tick.bestBid
  bestAsk : row.bestAsk = tick.bestAsk
  side : row.side.map sideCode = some tick.side
  eventType : row.eventType.map eventTypeCode = some tick.eventType
  assetId : encodeUtf8 row.assetId = tick.key

/-- What the decoder asks of a tick. -/
structure Decodable (tick : Tick D) : Prop where
  /-- the timestamp is a date -/
  date : tick.timestamp.toNat * 10 ^ 6 < 2 ^ 63
  /-- the asset id is text -/
  text : ValidUtf8 tick.key
  /-- and only its padding follows the terminator -/
  padded : ∀ b ∈ tick.assetId.bytes.dropWhile (· ≠ 0), b = 0

instance (tick : Tick D) : Decidable (Decodable tick) :=
  -- over the bytes of the list, not over all bytes
  haveI : Decidable (∀ b ∈ tick.assetId.bytes.dropWhile fun c => decide (c ≠ 0), b = 0) :=
    List.decidableBAll _ _
  decidable_of_iff
    (tick.timestamp.toNat * 10 ^ 6 < 2 ^ 63 ∧ ValidUtf8 tick.key ∧
      ∀ b ∈ tick.assetId.bytes.dropWhile fun c => decide (c ≠ 0), b = 0)
    ⟨fun parts => ⟨parts.1, parts.2.1, parts.2.2⟩,
      fun decodable => ⟨decodable.date, decodable.text, decodable.padded⟩⟩

theorem sideMap_shows {side : UInt8} (labelled : side = 0 ∨ side = 1) :
    (sideMap side.toNat).map sideCode = some side := by
  rcases labelled with rfl | rfl <;> rfl

theorem eventTypeMap_shows {eventType : UInt8} (labelled : eventType = 0 ∨ eventType = 1) :
    (eventTypeMap eventType.toNat).map eventTypeCode = some eventType := by
  rcases labelled with rfl | rfl <;> rfl

/-- **One record.** The decoder shows a tick exactly when it is decodable. -/
theorem decodeRecord_shows_iff (layout : DoubleLayout D) {record : Record D}
    (labelled : Labelled record.1) :
    (∃ row, decodeRecord layout (encodeTick layout record) = some row ∧ Shows row record.1) ↔
      Decodable record.1 := by
  rw [decodeRecord_encodeTick]
  constructor
  · rintro ⟨row, decoded, rowsShow⟩
    obtain ⟨assetId, text, decoded⟩ := Option.bind_eq_some_iff.mp decoded
    obtain ⟨timestampNs, date, rfl⟩ := Option.map_eq_some_iff.mp decoded
    have key : encodeUtf8 assetId = record.1.key := rowsShow.assetId
    have stripped := decodeUtf8_eq_some_iff.mp text
    refine ⟨?_, ?_, ?_⟩
    · unfold toDatetime at date
      split at date
      · assumption
      · cases date
    · rw [← isSome_decodeUtf8]
      exact ⟨assetId, decodeUtf8_eq_some_iff.mpr key⟩
    · rw [← rdropWhile_nul_iff, ← stripped, key]
      rfl
  · intro decodable
    have stripped : record.1.assetId.bytes.rdropWhile (· = 0) = record.1.key :=
      (rdropWhile_nul_iff _).mpr decodable.padded
    obtain ⟨assetId, text⟩ := (isSome_decodeUtf8 _).mpr decodable.text
    rw [stripped, text, toDatetime, if_pos decodable.date]
    exact ⟨_, rfl, rfl, rfl, rfl, rfl, rfl, sideMap_shows labelled.1,
      eventTypeMap_shows labelled.2, decodeUtf8_eq_some_iff.mp text⟩

/-! ## All records -/

theorem decodeAll_shows_iff (layout : DoubleLayout D) {records : List (Record D)}
    (labelled : ∀ record ∈ records, Labelled record.1) :
    (∃ rows, decodeAll layout (records.map (encodeTick layout)) = some rows ∧
        List.Forall₂ Shows rows (records.map Prod.fst)) ↔
      ∀ record ∈ records, Decodable record.1 := by
  simp only [decodeAll_eq_some_iff]
  induction records with
  | nil =>
      refine ⟨fun _ => nofun, fun _ => ⟨[], ?_, ?_⟩⟩
      · exact List.Forall₂.nil
      · exact List.Forall₂.nil
  | cons record records ih =>
      rw [List.forall_mem_cons] at labelled ⊢
      rw [← ih labelled.2, ← decodeRecord_shows_iff layout labelled.1]
      constructor
      · rintro ⟨rows, decoded, rowsShow⟩
        cases decoded with
        | cons here later =>
            cases rowsShow with
            | cons first rest => exact ⟨⟨_, here, first⟩, _, later, rest⟩
      · rintro ⟨⟨row, here, first⟩, rows, later, rest⟩
        exact ⟨row :: rows, .cons here later, .cons first rest⟩

/-- **Decoding undoes encoding.** A journal of enqueued ticks, with what a crash left behind them,
is decoded to exactly these ticks if and only if there is one and every one is decodable. -/
theorem journal_decodes_iff [Zero D] (json : Simdjson D) (layout : DoubleLayout D)
    (records : List (Record D)) (fragment : Str) (short : fragment.length < tickSize)
    (enqueued : ∀ record ∈ records, Enqueued json record.1) :
    (∃ rows, decodeJournal layout (journal layout records fragment) = some rows ∧
        List.Forall₂ Shows rows (records.map Prod.fst)) ↔
      records ≠ [] ∧ ∀ record ∈ records, Decodable record.1 := by
  have labelled : ∀ record ∈ records, Labelled record.1 :=
    fun record mem => (enqueued record mem).labelled
  rw [← decodeAll_shows_iff layout labelled, decodeJournal,
    validateSize_journal layout records short]
  by_cases empty : records = []
  · rw [if_pos empty]
    exact iff_of_false (fun found => nomatch found.choose_spec.1) (fun both => both.1 empty)
  · rw [if_neg empty, Option.bind_some, decodeRecords, strides_journal]
    exact (and_iff_right empty).symm

/-! ## Two trades -/

/-- A `double` is its bits. -/
def bitsLayout : DoubleLayout (BitVec 64) := ⟨id, id, fun _ => rfl⟩

def padding : Padding := ⟨List.replicate 6 0, List.length_replicate⟩

/-- `last_trade_price` for this asset. -/
def trade (assetId : Str) : Str :=
  ascii "\x7b\"event_type\":\"last_trade_price\",\"timestamp\":\"1\",\"asset_id\":\"" ++ assetId ++
    ascii "\",\"price\":\"0\",\"size\":\"0\",\"side\":\"BUY\"\x7d"

def tradeFields (assetId : Str) : Fields :=
  [(ascii "event_type", .ok (.string (ascii "last_trade_price"))),
    (ascii "timestamp", .ok (.string (ascii "1"))), (ascii "asset_id", .ok (.string assetId)),
    (ascii "price", .ok (.string (ascii "0"))), (ascii "size", .ok (.string (ascii "0"))),
    (ascii "side", .ok (.string (ascii "BUY")))]

def plainId : Str := ascii "46553"

/-- 80 bytes: 78 digits and an accented letter, of which the first byte is kept. -/
def cutId : Str := List.replicate 78 52 ++ [0xc3, 0xa9]

/-- A parser that knows the two trades. -/
def tradeJson : Simdjson (BitVec 64) where
  iterate text :=
    if text = trade plainId then .ok (.object (tradeFields plainId))
    else if text = trade cutId then .ok (.object (tradeFields cutId))
    else .error (.parse 3)
  unescape := .ok
  uint64InString raw := if raw = ascii "1" then .ok 1 else .error (.parse 9)
  doubleInString raw := if raw = ascii "0" then .ok 0 else .error (.parse 9)

/-- The records of what is enqueued for these messages. -/
def tradeRecords (messages : List Str) : List (Record (BitVec 64)) :=
  messages.flatMap fun msg => (parseAndPush tradeJson msg).out.map fun tick => (tick, padding)

theorem tradeRecords_enqueued {messages : List Str} :
    ∀ record ∈ tradeRecords messages, Enqueued tradeJson record.1 := by
  intro record mem
  obtain ⟨msg, -, mem⟩ := List.mem_flatMap.mp mem
  obtain ⟨tick, out, rfl⟩ := List.mem_map.mp mem
  exact ⟨msg, out⟩

/-- Two plain trades and a torn record. -/
theorem journal_decodes_plain :
    ∃ rows, decodeJournal bitsLayout
        (journal bitsLayout (tradeRecords [trade plainId, trade plainId]) [1, 2, 3]) = some rows ∧
      List.Forall₂ Shows rows ((tradeRecords [trade plainId, trade plainId]).map Prod.fst) :=
  (journal_decodes_iff tradeJson bitsLayout (tradeRecords [trade plainId, trade plainId]) [1, 2, 3]
    (by decide) tradeRecords_enqueued).mpr ⟨by decide +kernel, by decide +kernel⟩

/-- A plain trade, then one whose asset id is cut inside a character: both are enqueued, and
nothing of their journal is decoded. -/
theorem journal_fails_at_cut :
    (tradeRecords [trade plainId, trade cutId]).length = 2 ∧
    (∀ record ∈ tradeRecords [trade plainId, trade cutId], Enqueued tradeJson record.1) ∧
    decodeJournal bitsLayout
      (journal bitsLayout (tradeRecords [trade plainId, trade cutId]) []) = none ∧
    ¬ ∃ rows, decodeJournal bitsLayout
        (journal bitsLayout (tradeRecords [trade plainId, trade cutId]) []) = some rows ∧
      List.Forall₂ Shows rows ((tradeRecords [trade plainId, trade cutId]).map Prod.fst) := by
  have raised : decodeJournal bitsLayout
      (journal bitsLayout (tradeRecords [trade plainId, trade cutId]) []) = none := by
    rw [← Option.isNone_iff_eq_none]
    decide +kernel
  refine ⟨by decide +kernel, tradeRecords_enqueued, raised, ?_⟩
  rintro ⟨rows, decoded, -⟩
  cases raised.symm.trans decoded

end Tickscope.Journal
