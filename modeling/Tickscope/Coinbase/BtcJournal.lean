import Mathlib.Logic.Function.Basic
import Tickscope.Lib.Calendar

/-!
# The Coinbase journal

`src/coinbase/BtcJournal.hpp` and the files that it writes. A file has the time of its last
modification: `fopen` with `"ab"` sets it only for a file that it creates, and `flush` sets it with
the ticks that it appends. The clock is part of the state; a tick's own timestamp is whatever the
caller has put there. Whether `fopen` succeeds is in the label of a call.
-/

namespace Tickscope.Coinbase

open Tickscope.Lib

/-- `polymarket::core::BtcTick`. -/
structure BtcTick (D : Type) where
  timestamp : BitVec 64
  bid : D
  ask : D
  mid : D
deriving DecidableEq

/-- A `btc_*.bin` file. -/
structure BinFile (D : Type) where
  mtime : Nat
  ticks : List (BtcTick D)
deriving DecidableEq

/-- What the constructor is given. -/
structure Config where
  dataDir : Str
  rotationMinutes : Nat
  pos : 0 < rotationMinutes

namespace Config

def rotationMs (cfg : Config) : Nat := cfg.rotationMinutes * 60 * 1000

/-- The name that `open_segment` builds in its `char[128]`. -/
def segmentPath (cfg : Config) (segmentStartMs : Nat) : Str :=
  let tm := Calendar.gmtime (segmentStartMs / 1000 : Nat)
  (cfg.dataDir ++ ascii "/btc_" ++ zeroPadded 4 tm.year ++ zeroPadded 2 tm.month ++
    zeroPadded 2 tm.day ++ ascii "_" ++ zeroPadded 2 tm.hour ++ zeroPadded 2 tm.minute ++
    ascii ".bin").take 127

end Config

/-- The journal, with the clock in milliseconds and the files. -/
structure BtcJournal (D : Type) where
  now : Nat
  files : Str → Option (BinFile D)
  file : Option Str
  segmentStartMs : Nat
  buf : List (BtcTick D)

namespace BtcJournal

variable {D : Type}

/-- `BUF_CAP`. -/
def bufCap : Nat := 1024

/-- The constructor. -/
def fresh (now : Nat) (files : Str → Option (BinFile D)) : BtcJournal D :=
  { now := now, files := files, file := none, segmentStartMs := 0, buf := [] }

/-- `fwrite` and `fflush` of the buffer. -/
def append (j : BtcJournal D) (path : Str) : Str → Option (BinFile D) :=
  let before := ((j.files path).map BinFile.ticks).getD []
  Function.update j.files path (some { mtime := j.now, ticks := before ++ j.buf })

/-- `flush`. -/
def flush (j : BtcJournal D) : BtcJournal D :=
  if j.buf.isEmpty then j
  else
    match j.file with
    | none => { j with buf := [] }
    | some path => { j with files := j.append path, buf := [] }

/-- `close_segment`. -/
def closeSegment (j : BtcJournal D) : BtcJournal D := { j with file := none }

/-- The start of the window of a time. -/
def windowStart (cfg : Config) (tsMs : Nat) : Nat := tsMs / cfg.rotationMs * cfg.rotationMs

/-- `open_segment`. -/
def openSegment (cfg : Config) (tsMs : Nat) (opened : Bool) (j : BtcJournal D) : BtcJournal D :=
  let start := windowStart cfg tsMs
  let path := cfg.segmentPath start
  if opened then
    { j with
      segmentStartMs := start
      file := some path
      files :=
        if (j.files path).isSome then j.files
        else Function.update j.files path (some { mtime := j.now, ticks := [] }) }
  else { j with segmentStartMs := start, file := none }

/-- The open segment's window is over. -/
def rotationDue (cfg : Config) (tsMs : Nat) (j : BtcJournal D) : Bool :=
  let elapsedMs := if j.segmentStartMs < tsMs then tsMs - j.segmentStartMs else 0
  cfg.rotationMs ≤ elapsedMs

/-- `rotate_if_needed`. -/
def rotateIfNeeded (cfg : Config) (tsMs : Nat) (opened : Bool) (j : BtcJournal D) :
    BtcJournal D :=
  if j.file.isNone then j.openSegment cfg tsMs opened
  else if j.rotationDue cfg tsMs then j.flush.closeSegment.openSegment cfg tsMs opened
  else j

/-- `if (buf_pos_ >= BUF_CAP) flush()`. -/
def flushIfFull (j : BtcJournal D) : BtcJournal D := if bufCap ≤ j.buf.length then j.flush else j

/-- `buf_[buf_pos_++] = tick`. -/
def push (tick : BtcTick D) (j : BtcJournal D) : BtcJournal D := { j with buf := j.buf ++ [tick] }

/-- `write`. -/
def write (cfg : Config) (tick : BtcTick D) (opened : Bool) (j : BtcJournal D) : BtcJournal D :=
  ((j.rotateIfNeeded cfg tick.timestamp.toNat opened).flushIfFull.push tick).flushIfFull

/-- The destructor. -/
def destroy (j : BtcJournal D) : BtcJournal D := j.flush.closeSegment

/-! ## Steps -/

inductive Label (D : Type) where
  /-- a call of `write`, and what `fopen` would return -/
  | write (tick : BtcTick D) (opened : Bool)
  /-- time passes -/
  | wait (ms : Nat)
  /-- the process ends, after the destructor or without it, and starts again -/
  | restart (clean : Bool)

def step (cfg : Config) (j : BtcJournal D) : Label D → BtcJournal D
  | .write tick opened => j.write cfg tick opened
  | .wait ms => { j with now := j.now + ms }
  | .restart clean => fresh j.now (if clean then j.destroy else j).files

/-- A run. -/
def run (cfg : Config) (j : BtcJournal D) (ls : List (Label D)) : BtcJournal D :=
  ls.foldl (step cfg) j

theorem run_append (cfg : Config) (j : BtcJournal D) (ls ks : List (Label D)) :
    run cfg j (ls ++ ks) = run cfg (run cfg j ls) ks := List.foldl_append

/-! ## What the calls leave -/

@[simp] theorem flush_now (j : BtcJournal D) : j.flush.now = j.now := by
  unfold flush
  split
  · rfl
  · split <;> rfl

@[simp] theorem flush_file (j : BtcJournal D) : j.flush.file = j.file := by
  unfold flush
  split
  · rfl
  · split <;> rfl

@[simp] theorem openSegment_now (cfg : Config) (tsMs : Nat) (opened : Bool) (j : BtcJournal D) :
    (j.openSegment cfg tsMs opened).now = j.now := by
  unfold openSegment
  dsimp only
  split <;> rfl

theorem openSegment_file (cfg : Config) (tsMs : Nat) (opened : Bool) (j : BtcJournal D) :
    (j.openSegment cfg tsMs opened).file =
      if opened then some (cfg.segmentPath (windowStart cfg tsMs)) else none := by
  unfold openSegment
  dsimp only
  split <;> rfl

@[simp] theorem rotateIfNeeded_now (cfg : Config) (tsMs : Nat) (opened : Bool)
    (j : BtcJournal D) : (j.rotateIfNeeded cfg tsMs opened).now = j.now := by
  unfold rotateIfNeeded
  split
  · exact openSegment_now ..
  · split
    · rw [openSegment_now]
      exact flush_now j
    · rfl

@[simp] theorem flushIfFull_now (j : BtcJournal D) : j.flushIfFull.now = j.now := by
  unfold flushIfFull
  split
  · exact flush_now j
  · rfl

@[simp] theorem flushIfFull_file (j : BtcJournal D) : j.flushIfFull.file = j.file := by
  unfold flushIfFull
  split
  · exact flush_file j
  · rfl

@[simp] theorem write_now (cfg : Config) (tick : BtcTick D) (opened : Bool) (j : BtcJournal D) :
    (j.write cfg tick opened).now = j.now := by
  simp [write, push]

theorem write_file (cfg : Config) (tick : BtcTick D) (opened : Bool) (j : BtcJournal D) :
    (j.write cfg tick opened).file =
      (j.rotateIfNeeded cfg tick.timestamp.toNat opened).file := by
  simp [write, push]

theorem now_le_step (cfg : Config) (j : BtcJournal D) (l : Label D) :
    j.now ≤ (step cfg j l).now := by
  cases l with
  | write tick opened => exact (write_now cfg tick opened j).ge
  | wait ms => exact Nat.le_add_right _ _
  | restart clean => exact le_rfl

/-! ## Only the open segment is written -/

theorem flush_files_of_ne {j : BtcJournal D} {path : Str} (other : j.file ≠ some path) :
    j.flush.files path = j.files path := by
  unfold flush
  split
  · rfl
  · split
    · rfl
    · rename_i path' same
      have ne : path ≠ path' := by
        intro eq
        rw [eq] at other
        exact other same
      exact Function.update_of_ne ne ..

theorem openSegment_files_of_some (cfg : Config) (tsMs : Nat) (opened : Bool)
    {j : BtcJournal D} {path : Str} {f : BinFile D} (present : j.files path = some f) :
    (j.openSegment cfg tsMs opened).files path = some f := by
  unfold openSegment
  dsimp only
  split
  · dsimp only
    split
    · exact present
    · rename_i absent
      have ne : path ≠ cfg.segmentPath (windowStart cfg tsMs) := by
        intro eq
        rw [eq] at present
        rw [present] at absent
        exact absent rfl
      rw [Function.update_of_ne ne, present]
  · exact present

theorem flushIfFull_files_of_ne {j : BtcJournal D} {path : Str} (other : j.file ≠ some path) :
    j.flushIfFull.files path = j.files path := by
  unfold flushIfFull
  split
  · exact flush_files_of_ne other
  · rfl

theorem rotateIfNeeded_files_of_ne (cfg : Config) (tsMs : Nat) (opened : Bool)
    {j : BtcJournal D} {path : Str} {f : BinFile D} (other : j.file ≠ some path)
    (present : j.files path = some f) :
    (j.rotateIfNeeded cfg tsMs opened).files path = some f := by
  unfold rotateIfNeeded
  split
  · exact openSegment_files_of_some cfg tsMs opened present
  · split
    · refine openSegment_files_of_some cfg tsMs opened ?_
      exact (flush_files_of_ne other).trans present
    · exact present

/-- A file that is open neither before nor after a call is left alone by it. -/
theorem write_files_of_ne (cfg : Config) (tick : BtcTick D) (opened : Bool) {j : BtcJournal D}
    {path : Str} {f : BinFile D} (other : j.file ≠ some path)
    (other' : (j.write cfg tick opened).file ≠ some path) (present : j.files path = some f) :
    (j.write cfg tick opened).files path = some f := by
  have rotated := rotateIfNeeded_files_of_ne cfg tick.timestamp.toNat opened other present
  rw [write_file] at other'
  rw [write, flushIfFull_files_of_ne, push, flushIfFull_files_of_ne other']
  · exact rotated
  · rw [push, flushIfFull_file]
    exact other'

/-! ## Files grow -/

/-- The file is as it was, or has been given more ticks. -/
def Grown (f g : BinFile D) : Prop := g = f ∨ ∃ more ≠ [], g.ticks = f.ticks ++ more

theorem Grown.trans {f g h : BinFile D} (first : Grown f g) (second : Grown g h) : Grown f h := by
  rcases second with rfl | ⟨more', some', eq'⟩
  · exact first
  · rcases first with rfl | ⟨more, _, eq⟩
    · exact .inr ⟨more', some', eq'⟩
    · exact .inr ⟨more ++ more', List.append_ne_nil_of_right_ne_nil _ some',
        by rw [eq', eq, List.append_assoc]⟩

/-- A file that has the same ticks is the same. -/
theorem Grown.eq {f g : BinFile D} (grown : Grown f g) (same : g.ticks = f.ticks) : g = f := by
  rcases grown with rfl | ⟨more, added, eq⟩
  · rfl
  · rw [eq, List.append_right_eq_self] at same
    exact (added same).elim

theorem flush_grown {j : BtcJournal D} {path : Str} {f : BinFile D}
    (present : j.files path = some f) : ∃ g, j.flush.files path = some g ∧ Grown f g := by
  by_cases same : j.file = some path
  · unfold flush
    split
    · exact ⟨f, present, .inl rfl⟩
    · rename_i full
      rw [same]
      refine ⟨_, Function.update_self .., .inr ⟨j.buf, ?_, ?_⟩⟩
      · intro empty
        rw [empty] at full
        exact full rfl
      · simp [present]
  · exact ⟨f, (flush_files_of_ne same).trans present, .inl rfl⟩

theorem flushIfFull_grown {j : BtcJournal D} {path : Str} {f : BinFile D}
    (present : j.files path = some f) : ∃ g, j.flushIfFull.files path = some g ∧ Grown f g := by
  unfold flushIfFull
  split
  · exact flush_grown present
  · exact ⟨f, present, .inl rfl⟩

theorem rotateIfNeeded_grown (cfg : Config) (tsMs : Nat) (opened : Bool) {j : BtcJournal D}
    {path : Str} {f : BinFile D} (present : j.files path = some f) :
    ∃ g, (j.rotateIfNeeded cfg tsMs opened).files path = some g ∧ Grown f g := by
  unfold rotateIfNeeded
  split
  · exact ⟨f, openSegment_files_of_some cfg tsMs opened present, .inl rfl⟩
  · split
    · obtain ⟨g, flushed, grown⟩ := flush_grown present
      have closed : j.flush.closeSegment.files path = some g := flushed
      exact ⟨g, openSegment_files_of_some cfg tsMs opened closed, grown⟩
    · exact ⟨f, present, .inl rfl⟩

theorem write_grown (cfg : Config) (tick : BtcTick D) (opened : Bool) {j : BtcJournal D}
    {path : Str} {f : BinFile D} (present : j.files path = some f) :
    ∃ g, (j.write cfg tick opened).files path = some g ∧ Grown f g := by
  obtain ⟨g, rotated, grown⟩ := rotateIfNeeded_grown cfg tick.timestamp.toNat opened present
  obtain ⟨g', flushed, grown'⟩ := flushIfFull_grown rotated
  have pushed : ((j.rotateIfNeeded cfg tick.timestamp.toNat opened).flushIfFull.push tick).files
      path = some g' := flushed
  obtain ⟨g'', written, grown''⟩ := flushIfFull_grown pushed
  exact ⟨g'', written, (grown.trans grown').trans grown''⟩

end BtcJournal

end Tickscope.Coinbase
