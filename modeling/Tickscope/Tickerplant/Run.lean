import Tickscope.Lib.Calendar
import Tickscope.Lib.Stdio
import Tickscope.Memory.RingFifo
import Tickscope.Rdb.OrderBook

/-!
# The tickerplant

`src/tickerplant/Tickerplant.cpp`: the thread `run()` beside one producer thread
on the ring, the callers of `stop()` and `force_rotate()`, and the journal files.

A step of `run()` makes at most one access to what other threads see: the ring,
`running_`, `force_rotate_`, `book_` and `ticks_written_`. The journal and the
rotation window belong to `run()` alone, so a rotation is part of one step; its
clock reading and the outcome of its `fopen` are in the label. Records pass
through the buffer of `stdio`, which the C library may empty in part at any time
(`Label.spill`). `disk` lists the records of all files in the order in which they
reach their file. Times, windows and years are integers without a bound.
-/

namespace Tickscope.Tickerplant

open Tickscope.Lib Tickscope.Core Tickscope.Rdb

/-- `memory::RingBuffer<core::Tick, 65536>`. -/
def ringCapacity : Memory.Capacity := ⟨65536, by decide, by decide, by decide⟩

abbrev Ring (D : Type) := Memory.System Unit (Tick D) ringCapacity

/-! ## Journal files -/

/-- What the constructor is given and `run()` reads. -/
structure Config where
  journalDir : Str
  rotationIntervalMinutes : Int

namespace Config

def timeSlot (cfg : Config) (now : Int) : Int :=
  if cfg.rotationIntervalMinutes ≤ 0 then 0
  else (now.tdiv 60).tdiv cfg.rotationIntervalMinutes

/-- `make_journal_path`, with the `char[64]` that `snprintf` writes to. -/
def makeJournalPath (cfg : Config) (now : Int) : Str :=
  let time :=
    if 0 < cfg.rotationIntervalMinutes then cfg.timeSlot now * cfg.rotationIntervalMinutes * 60
    else now
  let utc := Calendar.gmtime time
  let buf := ascii "/polymarket_" ++ zeroPadded 4 utc.year ++ zeroPadded 2 utc.month ++
    zeroPadded 2 utc.day ++ ascii "_" ++ zeroPadded 2 utc.hour ++ zeroPadded 2 utc.minute ++
    ascii ".bin"
  cfg.journalDir ++ buf.take 63

end Config

/-- A file opened with `"ab"` and the records in its `stdio` buffer. -/
structure Journal (D : Type) where
  path : Str
  buffered : List (Tick D)

/-- `journal_fp_`, `current_slot_` and what the files hold. -/
structure Journals (D : Type) where
  journalFp : Option (Journal D)
  currentSlot : Int
  disk : List (Str × Tick D)

namespace Journals

variable {D : Type}

/-- The C library writes the first `n` buffered records to the file. -/
def spill (js : Journals D) (n : Nat) : Journals D :=
  match js.journalFp with
  | none => js
  | some journal =>
      { js with
        journalFp := some { journal with buffered := journal.buffered.drop n }
        disk := js.disk ++ (journal.buffered.take n).map fun tick => (journal.path, tick) }

/-- `if (journal_fp_) std::fflush(journal_fp_)`. -/
def fflush (js : Journals D) : Journals D :=
  match js.journalFp with
  | none => js
  | some journal =>
      { js with
        journalFp := some { journal with buffered := [] }
        disk := js.disk ++ journal.buffered.map fun tick => (journal.path, tick) }

/-- `if (journal_fp_) { std::fclose(journal_fp_); journal_fp_ = nullptr; }`. -/
def fclose (js : Journals D) : Journals D := { js.fflush with journalFp := none }

/-- `journal_fp_ = std::fopen(path, "ab")`. -/
def fopen (js : Journals D) (path : Str) (opened : Bool) : Journals D :=
  { js with journalFp := if opened then some ⟨path, []⟩ else none }

/-- `if (journal_fp_) std::fwrite(&tick, sizeof(core::Tick), 1, journal_fp_)`. -/
def fwrite (js : Journals D) (tick : Tick D) : Journals D :=
  match js.journalFp with
  | none => js
  | some journal =>
      { js with journalFp := some { journal with buffered := journal.buffered ++ [tick] } }

/-- `rotate(now)`. -/
def rotate (js : Journals D) (cfg : Config) (now : Int) (opened : Bool) : Journals D :=
  { js.fclose with currentSlot := cfg.timeSlot now }.fopen (cfg.makeJournalPath now) opened

/-- The rotation that `force_rotate()` has asked for. -/
def rotateForced (js : Journals D) (cfg : Config) (opened : Bool) : Journals D :=
  let slot := js.currentSlot + 1
  { js with currentSlot := slot }.fclose.fopen
    (cfg.makeJournalPath (slot * cfg.rotationIntervalMinutes * 60)) opened

/-- The flush and the time-based rotation, in a second that has not been looked at. -/
def maintain (js : Journals D) (cfg : Config) (now : Int) (opened : Bool) : Journals D :=
  if 0 < cfg.rotationIntervalMinutes ∧ cfg.timeSlot now ≠ js.currentSlot then
    js.fflush.rotate cfg now opened
  else js.fflush

end Journals

/-! ## The state -/

/-- The two loops that hold a copy of the per-tick code. -/
inductive Loop where
  | hot
  | drain
deriving DecidableEq

/-- The next step of `run()`, which has an own step for each access to shared state. -/
inductive Pc (D : Type) where
  /-- before `start()` -/
  | created
  /-- `last_maintenance = std::time(nullptr)` -/
  | enter
  /-- `while (running_.load())` -/
  | checkRunning
  /-- `if (force_rotate_.load())` -/
  | checkForce
  /-- `force_rotate_.store(false)` -/
  | clearForce
  /-- the forced rotation -/
  | forceRotate
  /-- the call `ring_.consume(tick)` -/
  | consume (loop : Loop)
  /-- inside `consume` -/
  | consuming (loop : Loop)
  /-- `if (journal_fp_) std::fwrite(...)` -/
  | write (loop : Loop) (tick : Tick D)
  /-- `if (tick.event_type == 0) book_.apply_tick(tick)` -/
  | apply (loop : Loop) (tick : Tick D)
  /-- `ticks_written_.fetch_add(1)` -/
  | count (loop : Loop) (tick : Tick D)
  /-- `if ((++loop_iters & 0x3FF) == 0)` -/
  | maintain
  /-- the clock, and the flush and rotation that depend on it -/
  | clock
  /-- the `fflush` after the drain -/
  | finalFlush
  | exited

/-- Where `run()` goes on when `consume` has returned. -/
def Loop.consumed {D : Type} (loop : Loop) : Option (Tick D) → Pc D
  | some tick => .write loop tick
  | none =>
      match loop with
      | .hot => .maintain
      | .drain => .finalFlush

/-- Where `run()` goes on when a tick is counted. -/
def Loop.counted {D : Type} : Loop → Pc D
  | .hot => .maintain
  | .drain => .consume .drain

structure System (D : Type) where
  ring : Ring D
  pc : Pc D
  running : Bool
  forceRotate : Bool
  journals : Journals D
  ticksWritten : BitVec 64
  book : OrderBook D
  loopIters : BitVec 64
  lastMaintenance : Int

/-- A step of `run()` carries the clock it would read and the outcome of the `fopen` it would
make. The producer is any single caller of `produce` and `try_produce`. -/
inductive Label (D : Type) where
  | start
  | stop
  | forceRotate
  | spill (n : Nat)
  | produce (item : Tick D)
  | tryProduce (item : Tick D)
  | producer
  | run (clock : Int) (opened : Bool)

/-- The step is not an `fopen` that fails. -/
def Label.opened {D : Type} : Label D → Bool
  | .run _ opened => opened
  | _ => true

namespace System

variable {D : Type}

/-! ## Steps -/

/-- The ring takes a step, and `run()` goes on to `pc`. -/
def ringStep (s : System D) (l : Memory.Label Unit (Tick D)) (pc : Pc D) : Option (System D) :=
  (s.ring.step l).map fun ring => { s with ring := ring, pc := pc }

/-- The next step of `run()`. -/
def stepRun (cfg : Config) (s : System D) (now : Int) (opened : Bool) : Option (System D) :=
  match s.pc with
  | .created => none
  | .enter => some { s with loopIters := 0, lastMaintenance := now, pc := .checkRunning }
  | .checkRunning =>
      some { s with pc := if s.running then .checkForce else .consume .drain }
  | .checkForce => some { s with pc := if s.forceRotate then .clearForce else .consume .hot }
  | .clearForce => some { s with forceRotate := false, pc := .forceRotate }
  | .forceRotate =>
      some { s with journals := s.journals.rotateForced cfg opened, pc := .consume .hot }
  | .consume loop => s.ringStep .consume (.consuming loop)
  | .consuming loop =>
      match s.ring.consumer with
      | .done out => s.ringStep .consumer (loop.consumed out)
      | _ => s.ringStep .consumer (.consuming loop)
  | .write loop tick =>
      some { s with journals := s.journals.fwrite tick, pc := .apply loop tick }
  | .apply loop tick =>
      some { s with
        book := if tick.eventType = 0 then s.book.applyTick tick else s.book
        pc := .count loop tick }
  | .count loop _ => some { s with ticksWritten := s.ticksWritten + 1, pc := loop.counted }
  | .maintain =>
      let iters := s.loopIters + 1
      some { s with
        loopIters := iters
        pc := if iters &&& 0x3FF = 0 then .clock else .checkRunning }
  | .clock =>
      if now = s.lastMaintenance then some { s with pc := .checkRunning }
      else
        some { s with
          lastMaintenance := now
          journals := s.journals.maintain cfg now opened
          pc := .checkRunning }
  | .finalFlush => some { s with journals := s.journals.fflush, pc := .exited }
  | .exited => none

def step (cfg : Config) (s : System D) : Label D → Option (System D)
  | .start =>
      match s.pc with
      | .created => some { s with running := true, pc := .enter }
      | _ => none
  | .stop => some { s with running := false }
  | .forceRotate => some { s with forceRotate := true }
  | .spill n => some { s with journals := s.journals.spill n }
  | .produce item => s.ringStep (.produce () item) s.pc
  | .tryProduce item => s.ringStep (.tryProduce () item) s.pc
  | .producer => s.ringStep (.producer ()) s.pc
  | .run now opened => s.stepRun cfg now opened

/-- `run()`, the producer and the callers of `stop()` and `force_rotate()`. -/
def machine (D : Type) (cfg : Config) : Machine (System D) (Label D) := ⟨step cfg⟩

/-- A constructed tickerplant, whose first `fopen` has succeeded, on a new ring. -/
def new [Zero D] (cfg : Config) (data : Fin ringCapacity.size → Tick D) (now : Int) :
    System D where
  ring := .new data
  pc := .created
  running := false
  forceRotate := false
  journals := ⟨some ⟨cfg.makeJournalPath now, []⟩, cfg.timeSlot now, []⟩
  ticksWritten := 0
  book := .new
  loopIters := 0
  lastMaintenance := 0

end System

end Tickscope.Tickerplant
