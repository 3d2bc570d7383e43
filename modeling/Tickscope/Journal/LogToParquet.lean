import Tickscope.Backtest.Ticks
import Tickscope.Core.Tick
import Tickscope.Lib.Bytes

/-!
# Journal records and their decoder

A `Tick` as the 128 bytes that `fwrite` takes from memory, and `scripts/harvester/log_to_parquet.py`
that reads them. `double` has the bits that both sides give it. A timestamp that does not fit into
a 64-bit count of nanoseconds and an asset id that is not UTF-8 raise, and then nothing is decoded.
-/

namespace Tickscope.Journal

open Tickscope.Backtest Tickscope.Core Tickscope.Lib

/-- The representation of `double`. -/
structure DoubleLayout (D : Type) where
  bits : D → BitVec 64
  ofBits : BitVec 64 → D
  ofBits_bits : ∀ x, ofBits (bits x) = x

/-- The six bytes behind `asset_id`. -/
abbrev Padding : Type := { bytes : Str // bytes.length = 6 }

/-- A tick with the padding that its record has in memory. -/
abbrev Record (D : Type) : Type := Tick D × Padding

variable {D : Type}

/-! ## Writing -/

/-- `TICK_SIZE`. -/
def tickSize : Nat := 128

/-- The members of the struct in their places. -/
def tickFields (layout : DoubleLayout D) (record : Record D) : List Str :=
  [leBytes 8 record.1.timestamp.toNat, leBytes 8 (layout.bits record.1.price).toNat,
    leBytes 8 (layout.bits record.1.size).toNat, leBytes 8 (layout.bits record.1.bestBid).toNat,
    leBytes 8 (layout.bits record.1.bestAsk).toNat, leBytes 1 record.1.side.toNat,
    leBytes 1 record.1.eventType.toNat, record.1.assetId.bytes, record.2.1]

def encodeTick (layout : DoubleLayout D) (record : Record D) : Str :=
  (tickFields layout record).flatten

/-- The widths of `TICK_FMT`, `'<QddddBB80s6x'`. -/
def tickFmt : List Nat := [8, 8, 8, 8, 8, 1, 1, 80, 6]

/-! ## Decoding -/

/-- A row of the data frame; a label that is not a category is null. -/
structure Row (D : Type) where
  timestampNs : Nat
  price : D
  size : D
  bestBid : D
  bestAsk : D
  side : Option Side
  eventType : Option EventType
  assetId : List Char

/-- `SIDE_MAP`. -/
def sideMap (side : Nat) : Option Side :=
  if side = 0 then some .bid else if side = 1 then some .ask else none

/-- `EVENT_TYPE_MAP`. -/
def eventTypeMap (eventType : Nat) : Option EventType :=
  if eventType = 0 then some .priceChange else if eventType = 1 then some .lastTrade else none

/-- `pd.to_datetime(unit='ms')` of one value, in nanoseconds. -/
def toDatetime (ms : Nat) : Option Nat :=
  if ms * 10 ^ 6 < 2 ^ 63 then some (ms * 10 ^ 6) else none

/-- `'d'`. -/
def unpackDouble (layout : DoubleLayout D) (bytes : Str) : D :=
  layout.ofBits (BitVec.ofNat 64 (ofLeBytes bytes))

/-- One record, or nothing when it raises. -/
def decodeRecord (layout : DoubleLayout D) (record : Str) : Option (Row D) :=
  match fields tickFmt record with
  | [ts, price, size, bestBid, bestAsk, side, eventType, assetBytes, _] =>
      (decodeUtf8 (assetBytes.rdropWhile (· = 0))).bind fun assetId =>
      (toDatetime (ofLeBytes ts)).map fun timestampNs =>
        { timestampNs := timestampNs
          price := unpackDouble layout price
          size := unpackDouble layout size
          bestBid := unpackDouble layout bestBid
          bestAsk := unpackDouble layout bestAsk
          side := sideMap (ofLeBytes side)
          eventType := eventTypeMap (ofLeBytes eventType)
          assetId := assetId }
  | _ => none

/-- All records, or nothing when one raises. -/
def decodeAll (layout : DoubleLayout D) : List Str → Option (List (Row D))
  | [] => some []
  | record :: records =>
      (decodeRecord layout record).bind fun row =>
        (decodeAll layout records).map fun rows => row :: rows

/-- `decode_records`. -/
def decodeRecords (layout : DoubleLayout D) (data : Str) (n : Nat) : Option (List (Row D)) :=
  decodeAll layout (strides tickSize n data)

/-- `validate_size`, which exits when there is no complete record. -/
def validateSize (data : Str) : Option (Nat × Nat) :=
  let nComplete := data.length / tickSize
  if nComplete = 0 then none else some (nComplete, data.length % tickSize)

/-- What `main` decodes. -/
def decodeJournal (layout : DoubleLayout D) (data : Str) : Option (List (Row D)) :=
  (validateSize data).bind fun size => decodeRecords layout data size.1

/-! ## One record -/

@[simp] theorem map_length_tickFields (layout : DoubleLayout D) (record : Record D) :
    (tickFields layout record).map List.length = tickFmt := by
  simp [tickFields, tickFmt, record.1.assetId.length_eq, record.2.2]

@[simp] theorem length_encodeTick (layout : DoubleLayout D) (record : Record D) :
    (encodeTick layout record).length = tickSize := by
  rw [encodeTick, List.length_flatten, map_length_tickFields]
  rfl

theorem unpackDouble_leBytes (layout : DoubleLayout D) (x : D) :
    unpackDouble layout (leBytes 8 (layout.bits x).toNat) = x := by
  rw [unpackDouble, ofLeBytes_leBytes 8 (layout.bits x).isLt, BitVec.ofNat_toNat,
    BitVec.setWidth_eq, layout.ofBits_bits]

/-- The decoder finds every member in its place. -/
theorem decodeRecord_encodeTick (layout : DoubleLayout D) (record : Record D) :
    decodeRecord layout (encodeTick layout record) =
      (decodeUtf8 (record.1.assetId.bytes.rdropWhile (· = 0))).bind fun assetId =>
        (toDatetime record.1.timestamp.toNat).map fun timestampNs =>
          { timestampNs := timestampNs
            price := record.1.price
            size := record.1.size
            bestBid := record.1.bestBid
            bestAsk := record.1.bestAsk
            side := sideMap record.1.side.toNat
            eventType := eventTypeMap record.1.eventType.toNat
            assetId := assetId } := by
  have found : fields tickFmt (encodeTick layout record) = tickFields layout record := by
    rw [encodeTick, ← map_length_tickFields layout record, fields_flatten]
  rw [decodeRecord, found, tickFields]
  dsimp only
  rw [ofLeBytes_leBytes 8 record.1.timestamp.isLt, ofLeBytes_leBytes 1 record.1.side.toNat_lt,
    ofLeBytes_leBytes 1 record.1.eventType.toNat_lt, unpackDouble_leBytes, unpackDouble_leBytes,
    unpackDouble_leBytes, unpackDouble_leBytes]

/-! ## All records -/

theorem decodeAll_eq_some_iff (layout : DoubleLayout D) {records : List Str}
    {rows : List (Row D)} :
    decodeAll layout records = some rows ↔
      List.Forall₂ (fun record row => decodeRecord layout record = some row) records rows := by
  induction records generalizing rows with
  | nil =>
      rw [decodeAll, List.forall₂_nil_left_iff, Option.some_inj, eq_comm]
  | cons record records ih =>
      rw [decodeAll, List.forall₂_cons_left_iff, Option.bind_eq_some_iff]
      refine exists_congr fun row => ?_
      simp only [Option.map_eq_some_iff, ih]
      constructor
      · rintro ⟨here, later, all, rfl⟩
        exact ⟨later, here, all, rfl⟩
      · rintro ⟨later, here, all, rfl⟩
        exact ⟨here, later, all, rfl⟩

/-- The journal of some records, and what a crash may have left behind them. -/
def journal (layout : DoubleLayout D) (records : List (Record D)) (fragment : Str) : Str :=
  records.flatMap (encodeTick layout) ++ fragment

theorem length_of_mem_encoded (layout : DoubleLayout D) (records : List (Record D)) :
    ∀ piece ∈ records.map (encodeTick layout), piece.length = tickSize := by
  intro piece mem
  obtain ⟨record, -, rfl⟩ := List.mem_map.mp mem
  exact length_encodeTick layout record

/-- `validate_size` counts the records that were written. -/
theorem validateSize_journal (layout : DoubleLayout D) (records : List (Record D))
    {fragment : Str} (short : fragment.length < tickSize) :
    validateSize (journal layout records fragment) =
      if records = [] then none else some (records.length, fragment.length) := by
  have length : (journal layout records fragment).length =
      records.length * tickSize + fragment.length := by
    rw [journal, List.length_append, List.flatMap_def,
      length_flatten_of_fixed (length_of_mem_encoded layout records), List.length_map]
  have size : tickSize = 128 := rfl
  unfold validateSize
  rw [length]
  dsimp only
  rw [size] at short ⊢
  have count : (records.length * 128 + fragment.length) / 128 = records.length := by omega
  have rest : (records.length * 128 + fragment.length) % 128 = fragment.length := by omega
  rw [count, rest]
  simp [List.length_eq_zero_iff]

/-- The strides of a journal are its records. -/
theorem strides_journal (layout : DoubleLayout D) (records : List (Record D)) (fragment : Str) :
    strides tickSize records.length (journal layout records fragment) =
      records.map (encodeTick layout) := by
  have found := strides_flatten (length_of_mem_encoded layout records) fragment
  rw [List.length_map] at found
  rw [journal, List.flatMap_def, found]

end Tickscope.Journal
