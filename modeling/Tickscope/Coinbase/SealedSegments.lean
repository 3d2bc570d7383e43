import Tickscope.Coinbase.BtcJournal
import Tickscope.Lib.Machine

/-!
# Sealed segments

`hourly_flush.sh` takes a file that has not been modified for 20 minutes to be sealed. The journal
flushes and rotates only inside `write`, so its open segment can be as old as the feed is quiet,
and what is still in the buffer is appended by a later call. `sealed_iff` says which runs keep
what the script relies on.
-/

namespace Tickscope.Coinbase.BtcJournal

open Tickscope.Lib

variable {D : Type}

/-- `MIN_AGE_MINUTES`. -/
def minAgeMinutes : Nat := 20

def minAgeMs : Nat := minAgeMinutes * 60 * 1000

/-- `find -mmin +20` selects the file. -/
def Aged (j : BtcJournal D) (path : Str) : Prop :=
  ∃ f, j.files path = some f ∧ f.mtime + minAgeMs < j.now

/-- A file that is selected at any moment of the run is not the open segment then, and nothing
is appended to it later. -/
def Sealed (cfg : Config) (j : BtcJournal D) (ls : List (Label D)) : Prop :=
  ∀ before after rest, ls = before ++ after ++ rest → ∀ path, Aged (run cfg j before) path →
    (run cfg j before).file ≠ some path ∧
      ((run cfg j (before ++ after)).files path).map BinFile.ticks =
        ((run cfg j before).files path).map BinFile.ticks

/-- The file whose age matters to a step: the open segment while time passes, and the one that
a call is about to open. -/
def segmentOf (cfg : Config) (j : BtcJournal D) : Label D → Option Str
  | .write tick opened =>
      if opened && (j.file.isNone || j.rotationDue cfg tick.timestamp.toNat) then
        some (cfg.segmentPath (windowStart cfg tick.timestamp.toNat))
      else none
  | .wait _ => j.file
  | .restart _ => none

/-- How long a step lasts. -/
def duration : Label D → Nat
  | .wait ms => ms
  | _ => 0

/-- At the end of the step, that file has been modified within 20 minutes. -/
def Timely (cfg : Config) (j : BtcJournal D) (l : Label D) : Prop :=
  ∀ path f, segmentOf cfg j l = some path → j.files path = some f →
    j.now + duration l ≤ f.mtime + minAgeMs

/-! ## The open segment -/

/-- The open segment exists and is not selected. -/
def Fresh (j : BtcJournal D) : Prop :=
  ∀ path, j.file = some path → ∃ f, j.files path = some f ∧ j.now ≤ f.mtime + minAgeMs

theorem Fresh.not_aged {j : BtcJournal D} (fresh : Fresh j) {path : Str} (aged : Aged j path) :
    j.file ≠ some path := by
  intro same
  obtain ⟨f, present, young⟩ := fresh path same
  obtain ⟨g, present', old⟩ := aged
  cases present.symm.trans present'
  exact Nat.not_le_of_lt old young

/-! ## What a step keeps -/

theorem flush_fresh {j : BtcJournal D} (fresh : Fresh j) : Fresh j.flush := by
  intro path same
  rw [flush_file] at same
  rw [flush_now]
  unfold flush
  split
  · exact fresh path same
  · rw [same]
    exact ⟨_, Function.update_self .., Nat.le_add_right _ _⟩

theorem flushIfFull_fresh {j : BtcJournal D} (fresh : Fresh j) : Fresh j.flushIfFull := by
  unfold flushIfFull
  split
  · exact flush_fresh fresh
  · exact fresh

theorem openSegment_fresh {cfg : Config} {tsMs : Nat} {opened : Bool} {j : BtcJournal D}
    (young : opened = true → ∀ f, j.files (cfg.segmentPath (windowStart cfg tsMs)) = some f →
      j.now ≤ f.mtime + minAgeMs) :
    Fresh (j.openSegment cfg tsMs opened) := by
  intro path same
  rw [openSegment_file] at same
  split at same
  · rename_i isOpened
    cases same
    rw [openSegment_now]
    cases present : j.files (cfg.segmentPath (windowStart cfg tsMs)) with
    | some f =>
        exact ⟨f, openSegment_files_of_some cfg tsMs opened present, young isOpened f present⟩
    | none =>
        unfold openSegment
        simp only [isOpened, present, Option.isSome_none, if_true]
        exact ⟨_, Function.update_self .., Nat.le_add_right _ _⟩
  · cases same

theorem rotateIfNeeded_fresh {cfg : Config} {tick : BtcTick D} {opened : Bool}
    {j : BtcJournal D} (fresh : Fresh j) (timely : Timely cfg j (.write tick opened)) :
    Fresh (j.rotateIfNeeded cfg tick.timestamp.toNat opened) := by
  unfold rotateIfNeeded
  split
  · rename_i closed
    refine openSegment_fresh fun isOpened f found => ?_
    refine timely _ f ?_ found
    rw [segmentOf, isOpened, closed]
    rfl
  · split
    · rename_i due
      refine openSegment_fresh fun isOpened f found => ?_
      have segment : segmentOf cfg j (.write tick opened) =
          some (cfg.segmentPath (windowStart cfg tick.timestamp.toNat)) := by
        rw [segmentOf, isOpened, due, Bool.or_true]
        rfl
      by_cases same : j.file = some (cfg.segmentPath (windowStart cfg tick.timestamp.toNat))
      · -- the same name again: the file has just been flushed
        obtain ⟨g, found', young⟩ := flush_fresh fresh _ ((flush_file j).trans same)
        cases found'.symm.trans found
        exact young
      · have now : j.flush.closeSegment.now = j.now := flush_now j
        rw [now]
        exact timely _ f segment ((flush_files_of_ne same).symm.trans found)
    · exact fresh

theorem step_fresh {cfg : Config} {j : BtcJournal D} {l : Label D} (fresh : Fresh j)
    (timely : Timely cfg j l) : Fresh (step cfg j l) := by
  cases l with
  | write tick opened =>
      have rotated := flushIfFull_fresh (rotateIfNeeded_fresh fresh timely)
      have pushed : Fresh ((j.rotateIfNeeded cfg tick.timestamp.toNat opened).flushIfFull.push
          tick) := rotated
      exact flushIfFull_fresh pushed
  | wait ms =>
      intro path same
      obtain ⟨f, found, -⟩ := fresh path same
      exact ⟨f, found, timely path f same found⟩
  | restart clean => exact nofun

/-- A timely step leaves a selected file as it is. -/
theorem step_aged {cfg : Config} {j : BtcJournal D} {l : Label D} (fresh : Fresh j)
    (timely : Timely cfg j l) {path : Str} (aged : Aged j path) :
    (step cfg j l).files path = j.files path ∧ Aged (step cfg j l) path := by
  have same : (step cfg j l).files path = j.files path := by
    have closed := fresh.not_aged aged
    obtain ⟨f, found, old⟩ := aged
    rw [found]
    cases l with
    | write tick opened =>
        refine write_files_of_ne cfg tick opened closed ?_ found
        intro same
        have rotated := rotateIfNeeded_fresh fresh timely
        rw [write_file] at same
        obtain ⟨g, found', young⟩ := rotated path same
        cases (rotateIfNeeded_files_of_ne cfg tick.timestamp.toNat opened closed
          found).symm.trans found'
        rw [rotateIfNeeded_now] at young
        exact Nat.not_le_of_lt old young
    | wait ms => exact found
    | restart clean =>
        cases clean with
        | false => exact found
        | true => exact (flush_files_of_ne closed).trans found
  refine ⟨same, ?_⟩
  obtain ⟨f, found, old⟩ := aged
  exact ⟨f, same.trans found, old.trans_le (now_le_step cfg j l)⟩

/-! ## Runs -/

/-- Every step of the run is timely. -/
abbrev TimelyAlong (cfg : Config) (j : BtcJournal D) (ls : List (Label D)) : Prop :=
  (Machine.ofFold (step cfg)).Along (Timely cfg) j ls

theorem run_fresh {cfg : Config} {j : BtcJournal D} {ls : List (Label D)} (fresh : Fresh j)
    (timely : TimelyAlong cfg j ls) : Fresh (run cfg j ls) := by
  induction ls generalizing j with
  | nil => exact fresh
  | cons l ls ih =>
      rw [TimelyAlong, Machine.along_ofFold_cons] at timely
      exact ih (step_fresh fresh timely.1) timely.2

theorem run_aged {cfg : Config} {j : BtcJournal D} {ls : List (Label D)} (fresh : Fresh j)
    (timely : TimelyAlong cfg j ls) {path : Str} (aged : Aged j path) :
    (run cfg j ls).files path = j.files path := by
  induction ls generalizing j with
  | nil => rfl
  | cons l ls ih =>
      rw [TimelyAlong, Machine.along_ofFold_cons] at timely
      have kept := step_aged fresh timely.1 aged
      exact (ih (step_fresh fresh timely.1) timely.2 kept.2).trans kept.1

theorem sealed_of_timely {cfg : Config} {j : BtcJournal D} {ls : List (Label D)}
    (fresh : Fresh j) (timely : TimelyAlong cfg j ls) : Sealed cfg j ls := by
  rintro before after rest rfl path aged
  rw [TimelyAlong, List.append_assoc, Machine.along_ofFold_append,
    Machine.along_ofFold_append] at timely
  have here := run_fresh fresh timely.1
  refine ⟨here.not_aged aged, ?_⟩
  rw [run_append, run_aged here timely.2.1 aged]

theorem Sealed.tail {cfg : Config} {j : BtcJournal D} {l : Label D} {ls : List (Label D)}
    (sealed : Sealed cfg j (l :: ls)) : Sealed cfg (step cfg j l) ls := by
  rintro before after rest rfl path aged
  exact sealed (l :: before) after rest rfl path aged

/-- A run that keeps its first files sealed begins with a timely step. -/
theorem Sealed.timely {cfg : Config} {j : BtcJournal D} {l : Label D} {ls : List (Label D)}
    (sealed : Sealed cfg j (l :: ls)) : Timely cfg j l := by
  intro path f segment found
  by_contra late
  rw [Nat.not_le] at late
  have first := sealed [] [] (l :: ls) rfl path
  have second := sealed [l] [] ls rfl path
  have whole := sealed [] [l] ls rfl path
  cases l with
  | write tick opened =>
      have aged : Aged j path := ⟨f, found, late⟩
      have closed := (first aged).1
      obtain ⟨g, written, grown⟩ := write_grown cfg tick opened found
      -- nothing has been appended, so the file that is now open is as old as before
      have unchanged : some g.ticks = some f.ticks := by
        have ticks := (whole aged).2
        rw [run_append] at ticks
        change ((j.write cfg tick opened).files path).map _ = (j.files path).map _ at ticks
        rw [written, found] at ticks
        exact ticks
      rw [grown.eq (Option.some.inj unchanged)] at written
      have aged' : Aged (step cfg j (.write tick opened)) path :=
        ⟨f, written, late.trans_le (now_le_step cfg j (.write tick opened))⟩
      refine (second aged').1 ?_
      simp only [segmentOf] at segment
      split at segment
      · rename_i opens
        cases segment
        rw [Bool.and_eq_true, Bool.or_eq_true] at opens
        have file := write_file cfg tick opened j
        refine file.trans ?_
        unfold rotateIfNeeded
        split
        · rw [openSegment_file, if_pos opens.1]
        · rename_i isOpen
          rw [if_pos (opens.2.resolve_left isOpen), openSegment_file, if_pos opens.1]
      · cases segment
  | wait ms =>
      have aged : Aged (step cfg j (.wait ms)) path := ⟨f, found, late⟩
      exact (second aged).1 segment
  | restart clean => cases segment

theorem timely_of_sealed {cfg : Config} {j : BtcJournal D} {ls : List (Label D)}
    (sealed : Sealed cfg j ls) : TimelyAlong cfg j ls := by
  induction ls generalizing j with
  | nil => trivial
  | cons l ls ih =>
      rw [TimelyAlong, Machine.along_ofFold_cons]
      exact ⟨sealed.timely, ih sealed.tail⟩

/-- **Sealed segments.** A run of a new journal keeps every file sealed that the script selects
if and only if no pause leaves the open segment unmodified for more than 20 minutes and no call
opens a file that already is. -/
theorem sealed_iff (cfg : Config) (now : Nat) (files : Str → Option (BinFile D))
    (ls : List (Label D)) :
    Sealed cfg (fresh now files) ls ↔ TimelyAlong cfg (fresh now files) ls :=
  ⟨timely_of_sealed, sealed_of_timely nofun⟩

/-! ## A quiet feed -/

def fifteenMinutes : Config := ⟨ascii "data", 15, by decide⟩

def quote (tsMs : BitVec 64) : BtcTick Unit := ⟨tsMs, (), (), ()⟩

/-- Nothing has been written before. -/
def noFiles : BtcJournal Unit := fresh 0 fun _ => none

/-- One quote, and then none for 20 minutes and a millisecond. -/
def quiet : List (Label Unit) := [.write (quote 0) true, .wait 1200001]

/-- The segment is selected while it is open, and the next quote appends the first to it. -/
theorem sealed_fails_when_quiet :
    (run fifteenMinutes noFiles quiet).file = some (ascii "data/btc_19700101_0000.bin") ∧
    (run fifteenMinutes noFiles quiet).files (ascii "data/btc_19700101_0000.bin") =
      some ⟨0, []⟩ ∧
    ((run fifteenMinutes noFiles (quiet ++ [.write (quote 1200001) true])).files
      (ascii "data/btc_19700101_0000.bin")).map BinFile.ticks = some [quote 0] ∧
    ¬ Sealed fifteenMinutes noFiles (quiet ++ [.write (quote 1200001) true]) := by
  have isOpen : (run fifteenMinutes noFiles quiet).file =
      some (ascii "data/btc_19700101_0000.bin") := by
    decide +kernel
  have empty : (run fifteenMinutes noFiles quiet).files (ascii "data/btc_19700101_0000.bin") =
      some ⟨0, []⟩ := by
    decide +kernel
  have now : (run fifteenMinutes noFiles quiet).now = 1200001 := by decide +kernel
  refine ⟨isOpen, empty, by decide +kernel, fun sealed => ?_⟩
  refine (sealed quiet [] [.write (quote 1200001) true] rfl _ ⟨_, empty, ?_⟩).1 isOpen
  rw [now]
  decide

end Tickscope.Coinbase.BtcJournal
