import Tickscope.Coinbase.BtcJournal
import Tickscope.Journal.LogToParquet
import Tickscope.Lib.Lists

/-!
# Coinbase records and their decoder

A `BtcTick` as the 64 bytes that `fwrite` takes from `buf_`, and `scripts/harvester/btc_to_parquet.py`
that reads them. The padding is zero, since `on_message` fills a `BtcTick tick{}`.
-/

namespace Tickscope.Coinbase

open Tickscope.Journal Tickscope.Lib

variable {D : Type}

/-! ## Writing -/

/-- `TICK_SIZE`. -/
def tickSize : Nat := 64

/-- The members of the struct in their places. -/
def tickFields (layout : DoubleLayout D) (tick : BtcTick D) : List Str :=
  [leBytes 8 tick.timestamp.toNat, leBytes 8 (layout.bits tick.bid).toNat,
    leBytes 8 (layout.bits tick.ask).toNat, leBytes 8 (layout.bits tick.mid).toNat,
    List.replicate 32 0]

def encodeTick (layout : DoubleLayout D) (tick : BtcTick D) : Str := (tickFields layout tick).flatten

/-- The widths of `TICK_FMT`, `'<Qddd32x'`. -/
def tickFmt : List Nat := [8, 8, 8, 8, 32]

/-! ## Decoding -/

/-- A row of the data frame. -/
structure BtcRow (D : Type) where
  timestampNs : Nat
  bid : D
  ask : D
  mid : D

/-- One record, or nothing when `to_datetime` raises. -/
def decodeRecord (layout : DoubleLayout D) (record : Str) : Option (BtcRow D) :=
  match fields tickFmt record with
  | [ts, bid, ask, mid, _] =>
      (toDatetime (ofLeBytes ts)).map fun timestampNs =>
        { timestampNs := timestampNs
          bid := unpackDouble layout bid
          ask := unpackDouble layout ask
          mid := unpackDouble layout mid }
  | _ => none

/-- `decode_records`. -/
def decodeRecords (layout : DoubleLayout D) (data : Str) (n : Nat) : Option (List (BtcRow D)) :=
  (strides tickSize n data).mapM (decodeRecord layout)

/-- What `main` decodes; it exits when there is no complete record. -/
def decodeFile (layout : DoubleLayout D) (data : Str) : Option (List (BtcRow D)) :=
  let n := data.length / tickSize
  if n = 0 then none else decodeRecords layout data n

/-! ## One record -/

/-- The row of a tick. -/
def rowOf (tick : BtcTick D) : Option (BtcRow D) :=
  (toDatetime tick.timestamp.toNat).map fun timestampNs =>
    ⟨timestampNs, tick.bid, tick.ask, tick.mid⟩

@[simp] theorem map_length_tickFields (layout : DoubleLayout D) (tick : BtcTick D) :
    (tickFields layout tick).map List.length = tickFmt := by
  simp [tickFields, tickFmt]

@[simp] theorem length_encodeTick (layout : DoubleLayout D) (tick : BtcTick D) :
    (encodeTick layout tick).length = tickSize := by
  rw [encodeTick, List.length_flatten, map_length_tickFields]
  rfl

theorem decodeRecord_encodeTick (layout : DoubleLayout D) (tick : BtcTick D) :
    decodeRecord layout (encodeTick layout tick) = rowOf tick := by
  have found : fields tickFmt (encodeTick layout tick) = tickFields layout tick := by
    rw [encodeTick, ← map_length_tickFields layout tick, fields_flatten]
  rw [decodeRecord, found, tickFields]
  dsimp only
  rw [ofLeBytes_leBytes 8 tick.timestamp.isLt, unpackDouble_leBytes, unpackDouble_leBytes,
    unpackDouble_leBytes]
  rfl

/-- `to_datetime` takes this timestamp. -/
theorem rowOf_of_date {tick : BtcTick D} (date : tick.timestamp.toNat * 10 ^ 6 < 2 ^ 63) :
    rowOf tick = some ⟨tick.timestamp.toNat * 10 ^ 6, tick.bid, tick.ask, tick.mid⟩ := by
  rw [rowOf, toDatetime, if_pos date]
  rfl

/-! ## A file -/

/-- The bytes of a file, and what a crash may have left behind them. -/
def fileBytes (layout : DoubleLayout D) (ticks : List (BtcTick D)) (fragment : Str) : Str :=
  ticks.flatMap (encodeTick layout) ++ fragment

theorem length_of_mem_encoded (layout : DoubleLayout D) (ticks : List (BtcTick D)) :
    ∀ piece ∈ ticks.map (encodeTick layout), piece.length = tickSize := by
  intro piece mem
  obtain ⟨tick, -, rfl⟩ := List.mem_map.mp mem
  exact length_encodeTick layout tick

/-- The number of complete records is the number of ticks. -/
theorem length_fileBytes_div (layout : DoubleLayout D) (ticks : List (BtcTick D)) {fragment : Str}
    (short : fragment.length < tickSize) :
    (fileBytes layout ticks fragment).length / tickSize = ticks.length := by
  have size : tickSize = 64 := rfl
  rw [fileBytes, List.length_append, List.flatMap_def,
    length_flatten_of_fixed (length_of_mem_encoded layout ticks), List.length_map]
  rw [size] at short ⊢
  omega

/-- **A file and its rows.** Every tick gives its row; a torn record at the end is ignored, and a file
without a complete record is refused. -/
theorem decodeFile_fileBytes (layout : DoubleLayout D) (ticks : List (BtcTick D)) {fragment : Str}
    (short : fragment.length < tickSize) :
    decodeFile layout (fileBytes layout ticks fragment) =
      if ticks = [] then none else ticks.mapM rowOf := by
  have records : strides tickSize ticks.length (fileBytes layout ticks fragment) =
      ticks.map (encodeTick layout) := by
    have found := strides_flatten (length_of_mem_encoded layout ticks) fragment
    rw [List.length_map] at found
    rw [fileBytes, List.flatMap_def, found]
  have each : decodeRecord layout ∘ encodeTick layout = rowOf := by
    funext tick
    rw [Function.comp_apply, decodeRecord_encodeTick]
  rw [decodeFile, length_fileBytes_div layout ticks short, decodeRecords, records, List.mapM_map,
    each]
  simp only [List.length_eq_zero_iff]

end Tickscope.Coinbase
