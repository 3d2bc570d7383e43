import Mathlib.Data.List.Induction
import Tickscope.Coinbase.SealedSegments

/-!
# Where the ticks go

`BtcJournal` with `ticks_written_`, and with a record of what its calls do: the indices at which
`buf_` is written, the ticks that are handed to `fwrite` and the file that is open then, and the
ticks that `flush` drops. `ticks_conserved` says that no tick is lost or doubled but for those that
are dropped. A failed `fopen` leaves ticks in the buffer while the window moves on;
`own_window_iff` says which runs put every tick into the file of its window.
-/

namespace Tickscope.Coinbase

open Tickscope.Lib

variable {D : Type}

namespace BtcJournal

/-- What `flush` hands to `fwrite`, with the file that is open. -/
def flushed (j : BtcJournal D) : List (Str × BtcTick D) :=
  match j.file with
  | none => []
  | some path => j.buf.map (path, ·)

/-- What `flush` drops. -/
def dropped (j : BtcJournal D) : List (BtcTick D) :=
  match j.file with
  | none => j.buf
  | some _ => []

end BtcJournal

/-- The journal with its counter and the record. -/
structure Recorded (D : Type) where
  journal : BtcJournal D
  ticksWritten : BitVec 64
  indices : List Nat
  fwritten : List (Str × BtcTick D)
  dropped : List (BtcTick D)

namespace Recorded

/-- The constructor. -/
def new (now : Nat) (files : Str → Option (BinFile D)) : Recorded D :=
  ⟨.fresh now files, 0, [], [], []⟩

/-- `flush`. -/
def flush (r : Recorded D) : Recorded D :=
  { r with
    journal := r.journal.flush
    fwritten := r.fwritten ++ r.journal.flushed
    dropped := r.dropped ++ r.journal.dropped }

def openSegment (cfg : Config) (tsMs : Nat) (opened : Bool) (r : Recorded D) : Recorded D :=
  { r with journal := r.journal.openSegment cfg tsMs opened }

def closeSegment (r : Recorded D) : Recorded D := { r with journal := r.journal.closeSegment }

/-- `rotate_if_needed`. -/
def rotateIfNeeded (cfg : Config) (tsMs : Nat) (opened : Bool) (r : Recorded D) : Recorded D :=
  if r.journal.file.isNone then r.openSegment cfg tsMs opened
  else if r.journal.rotationDue cfg tsMs then r.flush.closeSegment.openSegment cfg tsMs opened
  else r

/-- `if (buf_pos_ >= BUF_CAP) flush()`. -/
def flushIfFull (r : Recorded D) : Recorded D :=
  if BtcJournal.bufCap ≤ r.journal.buf.length then r.flush else r

/-- `buf_[buf_pos_++] = tick; ++ticks_written_`. -/
def push (tick : BtcTick D) (r : Recorded D) : Recorded D :=
  { r with
    journal := r.journal.push tick
    ticksWritten := r.ticksWritten + 1
    indices := r.indices ++ [r.journal.buf.length] }

/-- `write`, with what `fopen` would return. -/
def write (cfg : Config) (r : Recorded D) (call : BtcTick D × Bool) : Recorded D :=
  ((r.rotateIfNeeded cfg call.1.timestamp.toNat call.2).flushIfFull.push call.1).flushIfFull

/-- The destructor. -/
def destroy (r : Recorded D) : Recorded D := r.flush.closeSegment

/-- The calls of `write` on a new journal. -/
def after (cfg : Config) (now : Nat) (files : Str → Option (BinFile D))
    (calls : List (BtcTick D × Bool)) : Recorded D :=
  calls.foldl (write cfg) (new now files)

theorem after_concat (cfg : Config) (now : Nat) (files : Str → Option (BinFile D))
    (calls : List (BtcTick D × Bool)) (call : BtcTick D × Bool) :
    after cfg now files (calls ++ [call]) = (after cfg now files calls).write cfg call :=
  List.foldl_concat ..

/-! ## The journal below the record -/

@[simp] theorem journal_flushIfFull (r : Recorded D) :
    r.flushIfFull.journal = r.journal.flushIfFull := by
  unfold flushIfFull BtcJournal.flushIfFull
  split <;> rfl

@[simp] theorem journal_rotateIfNeeded (cfg : Config) (tsMs : Nat) (opened : Bool)
    (r : Recorded D) : (r.rotateIfNeeded cfg tsMs opened).journal =
      r.journal.rotateIfNeeded cfg tsMs opened := by
  unfold rotateIfNeeded BtcJournal.rotateIfNeeded
  split
  · rfl
  · split <;> rfl

/-- The record does not interfere with the journal. -/
theorem journal_write (cfg : Config) (r : Recorded D) (call : BtcTick D × Bool) :
    (r.write cfg call).journal = r.journal.write cfg call.1 call.2 := by
  rw [write, journal_flushIfFull, push]
  dsimp only
  rw [journal_flushIfFull, journal_rotateIfNeeded]
  rfl

/-! ## The buffer -/

theorem buf_flush (j : BtcJournal D) : j.flush.buf = [] := by
  unfold BtcJournal.flush
  split
  · rename_i empty
    exact List.isEmpty_iff.mp empty
  · split <;> rfl

theorem length_buf_flushIfFull (r : Recorded D) :
    r.flushIfFull.journal.buf.length < BtcJournal.bufCap := by
  unfold flushIfFull
  split
  · show r.journal.flush.buf.length < _
    rw [buf_flush]
    exact Nat.succ_pos 1023
  · rename_i room
    exact Nat.lt_of_not_le room

theorem indices_flushIfFull (r : Recorded D) : r.flushIfFull.indices = r.indices := by
  unfold flushIfFull
  split <;> rfl

theorem indices_rotateIfNeeded (cfg : Config) (tsMs : Nat) (opened : Bool) (r : Recorded D) :
    (r.rotateIfNeeded cfg tsMs opened).indices = r.indices := by
  unfold rotateIfNeeded
  split
  · rfl
  · split <;> rfl

theorem indices_write (cfg : Config) (r : Recorded D) (call : BtcTick D × Bool) :
    ∃ i < BtcJournal.bufCap, (r.write cfg call).indices = r.indices ++ [i] := by
  refine ⟨_, length_buf_flushIfFull (r.rotateIfNeeded cfg call.1.timestamp.toNat call.2), ?_⟩
  rw [write, indices_flushIfFull, push]
  dsimp only
  rw [indices_flushIfFull, indices_rotateIfNeeded]

/-! ## What becomes of the ticks -/

/-- The ticks in a file; a file that does not exist has none. -/
def contents (files : Str → Option (BinFile D)) (path : Str) : List (BtcTick D) :=
  ((files path).map BinFile.ticks).getD []

/-- What is written to one file. -/
def onFile (path : Str) (writes : List (Str × BtcTick D)) : List (BtcTick D) :=
  (writes.filter fun w => w.1 = path).map Prod.snd

/-- Every tick is on disk, in the buffer or dropped. -/
structure Conserves (files : Str → Option (BinFile D)) (ticks : List (BtcTick D))
    (r : Recorded D) : Prop where
  disk : ∀ path, contents r.journal.files path = contents files path ++ onFile path r.fwritten
  order : (r.fwritten.map Prod.snd ++ r.journal.buf).Sublist ticks
  count : r.ticksWritten =
    BitVec.ofNat 64 (r.fwritten.length + r.journal.buf.length + r.dropped.length)

variable {files : Str → Option (BinFile D)} {ticks : List (BtcTick D)} {r : Recorded D}

theorem conserves_new (now : Nat) : Conserves files [] (new now files) where
  disk _ := (List.append_nil _).symm
  order := List.Sublist.refl _
  count := rfl

theorem onFile_append (path : Str) (before after : List (Str × BtcTick D)) :
    onFile path (before ++ after) = onFile path before ++ onFile path after := by
  rw [onFile, List.filter_append, List.map_append]
  rfl

/-- What is handed to `fwrite` is on disk. -/
theorem contents_flush (j : BtcJournal D) (path : Str) :
    contents j.flush.files path = contents j.files path ++ onFile path j.flushed := by
  unfold BtcJournal.flush BtcJournal.flushed
  split
  · rename_i empty
    rw [List.isEmpty_iff.mp empty]
    cases j.file <;> exact (List.append_nil _).symm
  · cases j.file with
    | none => exact (List.append_nil _).symm
    | some current =>
        show contents (j.append current) path = _
        rw [contents, BtcJournal.append]
        by_cases same : path = current
        · subst same
          rw [Function.update_self]
          simp [contents, onFile, List.filter_map, Function.comp_def]
        · rw [Function.update_of_ne same]
          have none : onFile path (j.buf.map (current, ·)) = [] := by
            simp [onFile, List.filter_map, Function.comp_def, Ne.symm same]
          rw [none, List.append_nil]
          rfl

theorem map_snd_flushed (j : BtcJournal D) :
    j.flushed.map Prod.snd = [] ∧ j.dropped = j.buf ∨
      j.flushed.map Prod.snd = j.buf ∧ j.dropped = [] := by
  unfold BtcJournal.flushed BtcJournal.dropped
  cases j.file with
  | none => exact .inl ⟨rfl, rfl⟩
  | some path => exact .inr ⟨by simp [Function.comp_def], rfl⟩

theorem Conserves.flush (kept : Conserves files ticks r) : Conserves files ticks r.flush where
  disk path := by
    show contents r.journal.flush.files path = _
    rw [contents_flush, kept.disk, List.append_assoc, ← onFile_append]
    rfl
  order := by
    refine List.Sublist.trans ?_ kept.order
    show ((r.fwritten ++ r.journal.flushed).map Prod.snd ++ r.journal.flush.buf).Sublist _
    rw [buf_flush, List.append_nil, List.map_append, List.append_sublist_append_left]
    rcases map_snd_flushed r.journal with ⟨eq, -⟩ | ⟨eq, -⟩
    · rw [eq]
      exact List.nil_sublist _
    · rw [eq]
  count := by
    show r.ticksWritten = BitVec.ofNat 64 ((r.fwritten ++ r.journal.flushed).length +
      r.journal.flush.buf.length + (r.dropped ++ r.journal.dropped).length)
    have lengths : r.journal.flushed.length + r.journal.dropped.length =
        r.journal.buf.length := by
      rw [← List.length_map Prod.snd]
      rcases map_snd_flushed r.journal with ⟨eq, eq'⟩ | ⟨eq, eq'⟩ <;> simp [eq, eq']
    rw [kept.count, buf_flush, List.length_append, List.length_append]
    refine congrArg _ ?_
    simp only [List.length_nil]
    omega

theorem Conserves.flushIfFull (kept : Conserves files ticks r) :
    Conserves files ticks r.flushIfFull := by
  unfold Recorded.flushIfFull
  split
  · exact kept.flush
  · exact kept

theorem Conserves.closeSegment (kept : Conserves files ticks r) :
    Conserves files ticks r.closeSegment := ⟨kept.disk, kept.order, kept.count⟩

/-- A file that is created is empty. -/
theorem Conserves.openSegment (kept : Conserves files ticks r) (cfg : Config) (tsMs : Nat)
    (opened : Bool) : Conserves files ticks (r.openSegment cfg tsMs opened) := by
  have same : (r.openSegment cfg tsMs opened).journal.buf = r.journal.buf := by
    unfold Recorded.openSegment BtcJournal.openSegment
    cases opened <;> rfl
  refine ⟨fun path => ?_, ?_, ?_⟩
  · refine Eq.trans ?_ (kept.disk path)
    unfold Recorded.openSegment BtcJournal.openSegment
    cases opened with
    | false => rfl
    | true =>
        show contents (if _ then _ else _) path = _
        split
        · rfl
        · rename_i absent
          rw [Option.not_isSome_iff_eq_none] at absent
          by_cases here : path = cfg.segmentPath (BtcJournal.windowStart cfg tsMs)
          · rw [contents, here, Function.update_self, contents, absent]
            rfl
          · rw [contents, Function.update_of_ne here]
            rfl
  · rw [same]
    exact kept.order
  · rw [same]
    exact kept.count

theorem Conserves.rotateIfNeeded (kept : Conserves files ticks r) (cfg : Config) (tsMs : Nat)
    (opened : Bool) : Conserves files ticks (r.rotateIfNeeded cfg tsMs opened) := by
  unfold Recorded.rotateIfNeeded
  split
  · exact kept.openSegment cfg tsMs opened
  · split
    · exact kept.flush.closeSegment.openSegment cfg tsMs opened
    · exact kept

theorem Conserves.push (kept : Conserves files ticks r) (tick : BtcTick D) :
    Conserves files (ticks ++ [tick]) (r.push tick) where
  disk := kept.disk
  order := by
    show (r.fwritten.map Prod.snd ++ (r.journal.buf ++ [tick])).Sublist _
    rw [← List.append_assoc]
    exact kept.order.append (List.Sublist.refl _)
  count := by
    show r.ticksWritten + 1 = BitVec.ofNat 64
      (r.fwritten.length + (r.journal.buf ++ [tick]).length + r.dropped.length)
    have one : (1 : BitVec 64) = BitVec.ofNat 64 1 := rfl
    rw [kept.count, List.length_append, List.length_singleton, one, ← BitVec.ofNat_add]
    refine congrArg _ ?_
    omega

theorem Conserves.write (kept : Conserves files ticks r) (cfg : Config)
    (call : BtcTick D × Bool) : Conserves files (ticks ++ [call.1]) (r.write cfg call) :=
  ((kept.rotateIfNeeded cfg _ call.2).flushIfFull.push call.1).flushIfFull

theorem conserves_after (cfg : Config) (now : Nat) (files : Str → Option (BinFile D))
    (calls : List (BtcTick D × Bool)) :
    Conserves files (calls.map Prod.fst) (after cfg now files calls) := by
  induction calls using List.reverseRecOn with
  | nil => exact conserves_new now
  | append_singleton calls call ih =>
      rw [after_concat, List.map_append]
      exact ih.write cfg call

/-! ## What the destructor leaves -/

/-- All that is handed to `fwrite` if the journal is destroyed now. -/
def total (r : Recorded D) : List (Str × BtcTick D) := r.destroy.fwritten

theorem total_eq (r : Recorded D) : r.total = r.fwritten ++ r.journal.flushed := rfl

theorem total_flush (r : Recorded D) : r.flush.total = r.total := by
  have empty : r.journal.flush.flushed = [] := by
    unfold BtcJournal.flushed
    rw [buf_flush]
    split <;> rfl
  rw [total_eq]
  show r.flush.fwritten ++ r.journal.flush.flushed = _
  rw [empty, List.append_nil]
  rfl

theorem total_flushIfFull (r : Recorded D) : r.flushIfFull.total = r.total := by
  unfold flushIfFull
  split
  · exact total_flush r
  · rfl

/-- A tick that is added goes to the file that is open, if there is one. -/
theorem total_push (tick : BtcTick D) (r : Recorded D) :
    (r.push tick).total = r.total ++ (r.journal.file.toList.map (·, tick)) := by
  show r.fwritten ++ (r.journal.push tick).flushed = r.fwritten ++ r.journal.flushed ++ _
  rw [List.append_assoc, BtcJournal.flushed, BtcJournal.flushed, BtcJournal.push]
  dsimp only
  cases r.journal.file with
  | none => rfl
  | some path => simp

/-- A segment that is opened gets what is in the buffer. -/
theorem total_openSegment (cfg : Config) (tsMs : Nat) (opened : Bool) (r : Recorded D) :
    (r.openSegment cfg tsMs opened).total = r.fwritten ++
      if opened then
        r.journal.buf.map (cfg.segmentPath (BtcJournal.windowStart cfg tsMs), ·)
      else [] := by
  cases opened <;> rfl

theorem total_write (cfg : Config) (r : Recorded D) (call : BtcTick D × Bool) :
    (r.write cfg call).total =
      (r.rotateIfNeeded cfg call.1.timestamp.toNat call.2).total ++
        ((r.write cfg call).journal.file.toList.map (·, call.1)) := by
  rw [journal_write, BtcJournal.write_file, write, total_flushIfFull, total_push,
    total_flushIfFull, journal_flushIfFull, BtcJournal.flushIfFull_file, journal_rotateIfNeeded]

/-- What is in the buffer is on record when a segment is opened while none was. -/
theorem total_rotateIfNeeded (cfg : Config) (tsMs : Nat) (opened : Bool) (r : Recorded D) :
    (r.rotateIfNeeded cfg tsMs opened).total = r.total ++
      if r.journal.file = none ∧ opened = true then
        r.journal.buf.map (cfg.segmentPath (BtcJournal.windowStart cfg tsMs), ·)
      else [] := by
  unfold rotateIfNeeded
  cases state : r.journal.file with
  | none =>
      have nothing : r.total = r.fwritten := by
        rw [total_eq, BtcJournal.flushed, state]
        exact List.append_nil _
      rw [Option.isNone_none, if_pos rfl, total_openSegment, nothing]
      simp
  | some path =>
      have isOpen : ¬ (some path = none ∧ opened = true) := fun both => nomatch both.1
      rw [Option.isNone_some, if_neg Bool.false_ne_true, if_neg isOpen, List.append_nil]
      split
      · rw [total_openSegment]
        have empty : r.flush.closeSegment.journal.buf = [] := buf_flush r.journal
        rw [empty]
        cases opened <;> exact List.append_nil _
      · rfl

theorem file_write (cfg : Config) (r : Recorded D) (call : BtcTick D × Bool) :
    (r.write cfg call).journal.file =
      (r.journal.rotateIfNeeded cfg call.1.timestamp.toNat call.2).file := by
  rw [journal_write, BtcJournal.write_file]

/-- With an `fopen` that succeeds, a segment is open after the check. -/
theorem isOpen_rotateIfNeeded (cfg : Config) (tsMs : Nat) (j : BtcJournal D) :
    ∃ path, (j.rotateIfNeeded cfg tsMs true).file = some path := by
  unfold BtcJournal.rotateIfNeeded
  cases state : j.file with
  | none =>
      rw [Option.isNone_none, if_pos rfl]
      exact ⟨_, BtcJournal.openSegment_file ..⟩
  | some path =>
      rw [Option.isNone_some, if_neg Bool.false_ne_true]
      split
      · exact ⟨_, BtcJournal.openSegment_file ..⟩
      · exact ⟨path, state⟩

/-- Without a failed `fopen` a segment is open from the first call on. -/
theorem whole_of_opens {cfg : Config} {now : Nat} {files : Str → Option (BinFile D)}
    {calls : List (BtcTick D × Bool)} (opens : ∀ call ∈ calls, call.2 = true) :
    (after cfg now files calls).total.map Prod.snd = calls.map Prod.fst ∧
      ((after cfg now files calls).journal.file = none →
        (after cfg now files calls).journal.buf = []) := by
  induction calls using List.reverseRecOn with
  | nil => exact ⟨rfl, fun _ => rfl⟩
  | append_singleton calls call ih =>
      obtain ⟨whole, idle⟩ := ih fun c mem => opens c (List.mem_append_left _ mem)
      have opened : call.2 = true := opens call (List.mem_append_right _ List.mem_cons_self)
      obtain ⟨path, file⟩ : ∃ path, ((after cfg now files calls).write cfg call).journal.file =
          some path := by
        rw [file_write, opened]
        exact isOpen_rotateIfNeeded ..
      rw [after_concat]
      refine ⟨?_, fun closed => by rw [file] at closed; cases closed⟩
      rw [total_write, total_rotateIfNeeded, file, List.map_append, List.map_append, whole,
        List.map_append]
      have nothing : (if (after cfg now files calls).journal.file = none ∧ call.2 = true then
          (after cfg now files calls).journal.buf.map
            (cfg.segmentPath (BtcJournal.windowStart cfg call.1.timestamp.toNat), ·)
          else []) = [] := by
        split
        · rename_i both
          rw [idle both.1]
          rfl
        · rfl
      rw [nothing]
      simp

theorem indices_after (cfg : Config) (now : Nat) (files : Str → Option (BinFile D))
    (calls : List (BtcTick D × Bool)) :
    ∀ i ∈ (after cfg now files calls).indices, i < BtcJournal.bufCap := by
  induction calls using List.reverseRecOn with
  | nil => exact nofun
  | append_singleton calls call ih =>
      obtain ⟨i, inside, eq⟩ := indices_write cfg (after cfg now files calls) call
      rw [after_concat, eq]
      intro k mem
      rcases List.mem_append.mp mem with mem | mem
      · exact ih k mem
      · rw [List.mem_singleton.mp mem]
        exact inside

/-- **Conservation.** Every index into the buffer is below its size. What is handed to `fwrite` is
on disk; with what is in the buffer it is a part of the ticks written, in their order and none
twice; the counter counts these and what has been dropped. If every `fopen` succeeds, the
destructor leaves every tick on disk. -/
theorem ticks_conserved (cfg : Config) (now : Nat) (files : Str → Option (BinFile D))
    (calls : List (BtcTick D × Bool)) :
    let r := after cfg now files calls
    (∀ i ∈ r.indices, i < BtcJournal.bufCap) ∧
      (∀ path, contents r.journal.files path = contents files path ++ onFile path r.fwritten) ∧
      (r.fwritten.map Prod.snd ++ r.journal.buf).Sublist (calls.map Prod.fst) ∧
      r.ticksWritten =
        BitVec.ofNat 64 (r.fwritten.length + r.journal.buf.length + r.dropped.length) ∧
      ((∀ call ∈ calls, call.2 = true) →
        r.destroy.fwritten.map Prod.snd = calls.map Prod.fst ∧
          ∀ path, contents r.destroy.journal.files path =
            contents files path ++ onFile path r.destroy.fwritten) := by
  intro r
  have kept := conserves_after cfg now files calls
  exact ⟨indices_after cfg now files calls, kept.disk, kept.order, kept.count, fun opens =>
    ⟨(whole_of_opens opens).1, kept.flush.closeSegment.disk⟩⟩

/-! ## The window of a tick -/

/-- The segment file that is named for the window of a tick. -/
def ownSegment (cfg : Config) (tick : BtcTick D) : Str :=
  cfg.segmentPath (BtcJournal.windowStart cfg tick.timestamp.toNat)

/-- Every tick is in its own file. -/
def Placed (cfg : Config) (writes : List (Str × BtcTick D)) : Prop :=
  ∀ w ∈ writes, w.1 = ownSegment cfg w.2

/-- A call that opens a segment while none is open finds only ticks of this file in the buffer. -/
def OpensInWindow (cfg : Config) (r : Recorded D) (call : BtcTick D × Bool) : Prop :=
  r.journal.file = none ∧ call.2 = true →
    ∀ tick ∈ r.journal.buf, ownSegment cfg call.1 = ownSegment cfg tick

instance (cfg : Config) (r : Recorded D) (call : BtcTick D × Bool) :
    Decidable (OpensInWindow cfg r call) :=
  inferInstanceAs (Decidable (_ → ∀ tick ∈ r.journal.buf, _))

/-- The call does not go back before the open segment. -/
def Follows (r : Recorded D) (call : BtcTick D × Bool) : Prop :=
  r.journal.file.isSome → r.journal.segmentStartMs ≤ call.1.timestamp.toNat

/-- The open segment is that of the window which begins with it. -/
def Aligned (cfg : Config) (r : Recorded D) : Prop :=
  ∀ path, r.journal.file = some path → path = cfg.segmentPath r.journal.segmentStartMs ∧
    cfg.rotationMs ∣ r.journal.segmentStartMs

theorem segmentStartMs_flush (j : BtcJournal D) : j.flush.segmentStartMs = j.segmentStartMs := by
  unfold BtcJournal.flush
  split
  · rfl
  · split <;> rfl

theorem segmentStartMs_write (cfg : Config) (r : Recorded D) (call : BtcTick D × Bool) :
    (r.write cfg call).journal.segmentStartMs =
      (r.journal.rotateIfNeeded cfg call.1.timestamp.toNat call.2).segmentStartMs := by
  have full : ∀ j : BtcJournal D, j.flushIfFull.segmentStartMs = j.segmentStartMs := by
    intro j
    unfold BtcJournal.flushIfFull
    split
    · exact segmentStartMs_flush j
    · rfl
  rw [journal_write, BtcJournal.write, full, BtcJournal.push]
  exact full _

/-- What a call does to the segment: it opens one, fails to, or goes on with the one that is
open. -/
theorem segment_write (cfg : Config) (r : Recorded D) (call : BtcTick D × Bool) :
    (r.write cfg call).journal.file = none ∨
      ((r.write cfg call).journal.file = some (ownSegment cfg call.1) ∧
        (r.write cfg call).journal.segmentStartMs =
          BtcJournal.windowStart cfg call.1.timestamp.toNat) ∨
      (∃ path, r.journal.file = some path ∧ (r.write cfg call).journal.file = some path) ∧
        (r.write cfg call).journal.segmentStartMs = r.journal.segmentStartMs ∧
        r.journal.rotationDue cfg call.1.timestamp.toNat = false := by
  have opening : ∀ j : BtcJournal D,
      (j.openSegment cfg call.1.timestamp.toNat call.2).file = none ∨
        (j.openSegment cfg call.1.timestamp.toNat call.2).file = some (ownSegment cfg call.1) ∧
          (j.openSegment cfg call.1.timestamp.toNat call.2).segmentStartMs =
            BtcJournal.windowStart cfg call.1.timestamp.toNat := by
    intro j
    cases call.2 with
    | false => exact .inl rfl
    | true => exact .inr ⟨rfl, rfl⟩
  rw [file_write, segmentStartMs_write]
  unfold BtcJournal.rotateIfNeeded
  cases state : r.journal.file with
  | none => exact (opening r.journal).imp id .inl
  | some path =>
      rw [Option.isNone_some, if_neg Bool.false_ne_true]
      cases due : r.journal.rotationDue cfg call.1.timestamp.toNat with
      | true => exact (opening r.journal.flush.closeSegment).imp id .inl
      | false => exact .inr (.inr ⟨⟨path, rfl, state⟩, rfl, rfl⟩)

/-- Until a rotation is due the window of a call is that of the open segment. -/
theorem windowStart_of_not_due {cfg : Config} {j : BtcJournal D} {tsMs : Nat}
    (aligned : cfg.rotationMs ∣ j.segmentStartMs) (follows : j.segmentStartMs ≤ tsMs)
    (due : j.rotationDue cfg tsMs = false) :
    BtcJournal.windowStart cfg tsMs = j.segmentStartMs := by
  have pos : 0 < cfg.rotationMs := by
    have minutes := cfg.pos
    unfold Config.rotationMs
    omega
  have within : tsMs - j.segmentStartMs < cfg.rotationMs := by
    rw [BtcJournal.rotationDue, decide_eq_false_iff_not, Nat.not_le] at due
    split at due
    · exact due
    · omega
  obtain ⟨k, start⟩ := aligned
  rw [BtcJournal.windowStart, start]
  have quotient : tsMs / cfg.rotationMs = k := by
    refine Nat.div_eq_of_lt_le ?_ ?_
    · rw [Nat.mul_comm, ← start]
      exact follows
    · rw [Nat.succ_mul, Nat.mul_comm, ← start]
      omega
  rw [quotient, Nat.mul_comm]

theorem Aligned.write {cfg : Config} {r : Recorded D} (aligned : Aligned cfg r)
    (call : BtcTick D × Bool) : Aligned cfg (r.write cfg call) := by
  intro path file
  rcases segment_write cfg r call with none | ⟨own, start⟩ | ⟨⟨path', before, same⟩, start, -⟩
  · rw [none] at file
    cases file
  · rw [own] at file
    cases file
    rw [start]
    exact ⟨rfl, Nat.dvd_mul_left _ _⟩
  · rw [same] at file
    cases file
    rw [start]
    exact aligned path before

/-- The tick of a call goes to its own file. -/
theorem file_write_of_follows {cfg : Config} {r : Recorded D} {call : BtcTick D × Bool}
    (aligned : Aligned cfg r) (follows : Follows r call) {path : Str}
    (file : (r.write cfg call).journal.file = some path) : path = ownSegment cfg call.1 := by
  rcases segment_write cfg r call with none | ⟨own, -⟩ | ⟨⟨path', before, same⟩, -, due⟩
  · rw [none] at file
    cases file
  · rw [own] at file
    exact (Option.some.inj file).symm
  · rw [same] at file
    cases file
    obtain ⟨named, dvd⟩ := aligned path before
    have start := follows (by rw [before]; rfl)
    rw [named, ownSegment, windowStart_of_not_due dvd start due]

/-- **One call.** Every tick stays in its own file exactly under the condition. -/
theorem placed_write_iff {cfg : Config} {r : Recorded D} {call : BtcTick D × Bool}
    (aligned : Aligned cfg r) (follows : Follows r call) (placed : Placed cfg r.total) :
    Placed cfg (r.write cfg call).total ↔ OpensInWindow cfg r call := by
  have own : Placed cfg ((r.write cfg call).journal.file.toList.map (·, call.1)) := by
    intro w mem
    obtain ⟨path, file, rfl⟩ := List.mem_map.mp mem
    exact file_write_of_follows aligned follows (Option.mem_toList.mp file)
  have split : ∀ before after : List (Str × BtcTick D),
      Placed cfg (before ++ after) ↔ Placed cfg before ∧ Placed cfg after :=
    fun _ _ => List.forall_mem_append
  rw [total_write, split, and_iff_left own, total_rotateIfNeeded, split, and_iff_right placed,
    OpensInWindow]
  by_cases opens : r.journal.file = none ∧ call.2 = true
  · rw [if_pos opens, Placed, List.forall_mem_map, imp_iff_right opens]
    rfl
  · rw [if_neg opens]
    exact iff_of_true nofun fun both => absurd both opens

/-- Calls in the order of their timestamps do not go back. -/
theorem follows_of_sorted {cfg : Config} {calls : List (BtcTick D × Bool)} {r : Recorded D}
    (sorted : calls.Pairwise fun call later =>
      call.1.timestamp.toNat ≤ later.1.timestamp.toNat)
    (first : ∀ call ∈ calls, Follows r call) :
    (Machine.ofFold (write cfg)).Along Follows r calls := by
  induction calls generalizing r with
  | nil => exact True.intro
  | cons call calls ih =>
      rw [List.pairwise_cons] at sorted
      rw [List.forall_mem_cons] at first
      rw [Machine.along_ofFold_cons]
      refine ⟨first.1, ih sorted.2 fun later mem isOpen => ?_⟩
      have le := sorted.1 later mem
      rcases segment_write cfg r call with none | ⟨-, start⟩ | ⟨⟨path, before, -⟩, start, -⟩
      · rw [none] at isOpen
        cases isOpen
      · rw [start]
        exact (Nat.div_mul_le_self _ _).trans le
      · rw [start]
        exact first.2 later mem (by rw [before]; rfl)

/-- **Own window.** In a run whose timestamps do not decrease, every tick that reaches the disk is
in the file that is named for its window if and only if every call that opens a segment, while none
is open, finds only ticks of this file in the buffer. -/
theorem own_window_iff (cfg : Config) (now : Nat) (files : Str → Option (BinFile D))
    (calls : List (BtcTick D × Bool))
    (sorted : calls.Pairwise fun call later =>
      call.1.timestamp.toNat ≤ later.1.timestamp.toNat) :
    (∀ before, before <+: calls → Placed cfg (after cfg now files before).destroy.fwritten) ↔
      (Machine.ofFold (write cfg)).Along (OpensInWindow cfg) (new now files) calls := by
  have follows : (Machine.ofFold (write cfg)).Along Follows (new now files) calls :=
    follows_of_sorted sorted fun _ _ isOpen => nomatch isOpen
  have always : (Machine.ofFold (write cfg)).Always (fun r => Placed cfg r.total)
        (new now files) calls ↔
      (Machine.ofFold (write cfg)).Along (OpensInWindow cfg) (new now files) calls := by
    refine Machine.always_iff_along (P := Follows)
      (J := fun r => Aligned cfg r ∧ Placed cfg r.total) ?_ (fun _ both => both.2) ?_ ⟨nofun, nofun⟩
      follows (Machine.run_ofFold calls)
    · rintro r call _ ⟨aligned, placed⟩ ⟨follows, opens⟩ ⟨⟩
      exact ⟨aligned.write call, (placed_write_iff aligned follows placed).mpr opens⟩
    · rintro r call _ ⟨aligned, placed⟩ follows ⟨⟩ placed'
      exact (placed_write_iff aligned follows placed).mp placed'
  rw [← always, Machine.always_iff_forall_prefix]
  constructor
  · rintro placed before r initial reached
    cases (Machine.run_ofFold before).symm.trans reached
    exact placed before initial
  · exact fun placed before initial => placed before _ initial (Machine.run_ofFold before)

/-- The first file cannot be opened, and the next quote of the same window opens it. -/
theorem own_window_iff_secondTry :
    let calls := [(BtcJournal.quote 0, false), (BtcJournal.quote 5, true)]
    ∀ before, before <+: calls → Placed BtcJournal.fifteenMinutes
      (after BtcJournal.fifteenMinutes 0 (fun _ => none) before).destroy.fwritten :=
  (own_window_iff _ _ _ _ (by decide)).mpr (by decide +kernel)

/-- No file can be opened at 00:00, and at 00:15 the quote of 00:00 goes to the next file. -/
theorem own_window_fails_after_failed_open :
    let calls := [(BtcJournal.quote 0, false), (BtcJournal.quote 900000, true)]
    (after BtcJournal.fifteenMinutes 0 (fun _ => none) calls).destroy.fwritten =
        [(ascii "data/btc_19700101_0015.bin", BtcJournal.quote 0),
          (ascii "data/btc_19700101_0015.bin", BtcJournal.quote 900000)] ∧
      ownSegment BtcJournal.fifteenMinutes (BtcJournal.quote 0) =
        ascii "data/btc_19700101_0000.bin" ∧
      ¬ Placed BtcJournal.fifteenMinutes
        (after BtcJournal.fifteenMinutes 0 (fun _ => none) calls).destroy.fwritten := by
  intro calls
  have written : (after BtcJournal.fifteenMinutes 0 (fun _ => none) calls).destroy.fwritten =
      [(ascii "data/btc_19700101_0015.bin", BtcJournal.quote 0),
        (ascii "data/btc_19700101_0015.bin", BtcJournal.quote 900000)] := by
    decide +kernel
  have own : ownSegment BtcJournal.fifteenMinutes (BtcJournal.quote 0) =
      ascii "data/btc_19700101_0000.bin" := by
    decide +kernel
  refine ⟨written, own, fun placed => ?_⟩
  rw [written] at placed
  have misplaced := placed _ List.mem_cons_self
  rw [own] at misplaced
  exact absurd misplaced (by decide)

end Recorded

end Tickscope.Coinbase
