import Tickscope.Lib.Calendar
import Tickscope.Lib.Stdio

/-!
# Retention

The retention helpers of `src/harvester/main.cpp`. A `file_time_type` counts nanoseconds in 64
bits and the product with 24 is an `int`, so arithmetic wraps. `prune_respects_window_iff` says
for which windows the cutoff is not later than the window's start.
-/

namespace Tickscope.Harvester

open Tickscope.Lib

/-! ## Cutoffs -/

/-- `%04d-%02d-%02d` of a date, in a buffer of 16. -/
def isoDate (tm : Tm) : Str :=
  (zeroPadded 4 tm.year ++ ascii "-" ++ zeroPadded 2 tm.month ++ ascii "-" ++
    zeroPadded 2 tm.day).take 15

/-- `iso_date_days_ago`, at a reading of `time`. -/
def isoDateDaysAgo (time : Int) (days : BitVec 32) : Str :=
  isoDate (Calendar.gmtime (time - days.toInt * 86400))

/-- `std::chrono::hours(24 * retention_days)` in nanoseconds. -/
def window (retentionDays : BitVec 32) : BitVec 64 :=
  (24 * retentionDays).signExtend 64 * 3600000000000

/-- The cutoff of `prune_old_data_files`, at a reading of the file clock. -/
def fileCutoff (now : BitVec 64) (retentionDays : BitVec 32) : BitVec 64 :=
  now - window retentionDays

/-! ## Data files -/

/-- An entry of the data directory, with a content of any kind. -/
structure DirEntry (C : Type) where
  name : Str
  isRegularFile : Bool
  /-- `last_write_time`, unless it fails -/
  lastWriteTime : Option (BitVec 64)
  /-- `fs::remove` succeeds -/
  removable : Bool
  content : C

variable {C : Type}

/-- The loop's body removes the entry. -/
def DirEntry.removed (cutoff : BitVec 64) (entry : DirEntry C) : Bool :=
  entry.isRegularFile && entry.name ≠ ascii "market_metadata.csv" &&
    entry.name ≠ ascii "market_metadata.csv.tmp" &&
    match entry.lastWriteTime with
    | none => false
    | some mtime => mtime.slt cutoff && entry.removable

/-- `prune_old_data_files`: the entries that stay. A directory that cannot be opened is empty. -/
def pruneOldDataFiles (now : BitVec 64) (retentionDays : BitVec 32) (dataDir : List (DirEntry C)) :
    List (DirEntry C) :=
  dataDir.filter fun entry => !entry.removed (fileCutoff now retentionDays)

/-! ## The window -/

/-- The start of the window, without wrapping. -/
def windowStart (now : BitVec 64) (retentionDays : BitVec 32) : Int :=
  now.toInt - retentionDays.toInt * 86400 * 10 ^ 9

/-- The cutoff is not later than the start of the window, and of the files only those go that
were last written before it. -/
structure RespectsWindow (now : BitVec 64) (retentionDays : BitVec 32) : Prop where
  cutoff : (fileCutoff now retentionDays).toInt ≤ windowStart now retentionDays
  files : ∀ (dataDir : List (DirEntry Unit)), ∀ entry ∈ dataDir,
    entry ∉ pruneOldDataFiles now retentionDays dataDir →
      entry.isRegularFile = true ∧ ∃ mtime, entry.lastWriteTime = some mtime ∧
        mtime.toInt < windowStart now retentionDays

theorem window_toInt (retentionDays : BitVec 32) :
    (window retentionDays).toInt =
      ((24 * retentionDays.toInt).bmod (2 ^ 32) * 3600000000000).bmod (2 ^ 64) := by
  rw [window, BitVec.toInt_mul, BitVec.toInt_signExtend_of_le (by decide), BitVec.toInt_mul]
  rfl

/-- A window that starts within the range of the clock is computed without wrapping. -/
theorem fileCutoff_toInt {now : BitVec 64} {retentionDays : BitVec 32}
    (early : -2 ^ 63 ≤ windowStart now retentionDays)
    (late : windowStart now retentionDays < 2 ^ 63) :
    (fileCutoff now retentionDays).toInt = windowStart now retentionDays := by
  have nowLe := now.le_toInt
  have nowLt := now.toInt_lt
  unfold windowStart at *
  -- so many days fit an `int` of hours
  have hours : (24 * retentionDays.toInt).bmod (2 ^ 32) = 24 * retentionDays.toInt :=
    Int.bmod_eq_of_le (by omega) (by omega)
  rw [fileCutoff, BitVec.toInt_sub, window_toInt, hours, Int.sub_bmod_bmod]
  have start : now.toInt - 24 * retentionDays.toInt * 3600000000000 =
      now.toInt - retentionDays.toInt * 86400 * 10 ^ 9 := by omega
  rw [start]
  exact Int.bmod_eq_of_le (by omega) (by omega)

theorem fileCutoff_le_windowStart {now : BitVec 64} {retentionDays : BitVec 32} :
    (fileCutoff now retentionDays).toInt ≤ windowStart now retentionDays ↔
      -2 ^ 63 ≤ windowStart now retentionDays := by
  have cutoffLe := (fileCutoff now retentionDays).le_toInt
  have cutoffLt := (fileCutoff now retentionDays).toInt_lt
  constructor
  · intro le
    omega
  · intro early
    by_cases late : windowStart now retentionDays < 2 ^ 63
    · exact Int.le_of_eq (fileCutoff_toInt early late)
    · omega

theorem removed_of_not_mem_prune {now : BitVec 64} {retentionDays : BitVec 32}
    {dataDir : List (DirEntry C)} {entry : DirEntry C} (mem : entry ∈ dataDir)
    (gone : entry ∉ pruneOldDataFiles now retentionDays dataDir) :
    entry.isRegularFile = true ∧ ∃ mtime, entry.lastWriteTime = some mtime ∧
      mtime.toInt < (fileCutoff now retentionDays).toInt := by
  have removed : entry.removed (fileCutoff now retentionDays) = true := by
    by_contra stays
    refine gone (List.mem_filter.mpr ⟨mem, ?_⟩)
    rw [Bool.not_eq_true] at stays
    rw [stays]
    rfl
  unfold DirEntry.removed at removed
  simp only [Bool.and_eq_true] at removed
  rcases removed with ⟨⟨⟨regular, -⟩, -⟩, old⟩
  refine ⟨regular, ?_⟩
  cases read : entry.lastWriteTime with
  | none =>
      rw [read] at old
      cases old
  | some mtime =>
      rw [read] at old
      exact ⟨mtime, rfl, BitVec.slt_iff_toInt_lt.mp (Bool.and_eq_true_iff.mp old).1⟩

/-- **The retention window.** Files are pruned by the window exactly when it starts within the
range of the file clock. -/
theorem prune_respects_window_iff (now : BitVec 64) (retentionDays : BitVec 32) :
    RespectsWindow now retentionDays ↔
      retentionDays.toInt * 86400 * 10 ^ 9 ≤ now.toInt + 2 ^ 63 := by
  have range : -2 ^ 63 ≤ windowStart now retentionDays ↔
      retentionDays.toInt * 86400 * 10 ^ 9 ≤ now.toInt + 2 ^ 63 := by
    unfold windowStart
    omega
  rw [← range, ← fileCutoff_le_windowStart]
  constructor
  · exact RespectsWindow.cutoff
  · intro le
    refine ⟨le, fun dataDir entry mem gone => ?_⟩
    rcases removed_of_not_mem_prune mem gone with ⟨regular, mtime, read, old⟩
    exact ⟨regular, mtime, read, Int.lt_of_lt_of_le old le⟩

/-! ## A window of 100000 days -/

/-- 2026-06-01 on a clock that counts from 2174-01-01. -/
def june2026 : BitVec 64 := BitVec.ofInt 64 (-4657392000000000000)

/-- A file that is being written. -/
def freshFile : DirEntry Unit where
  name := ascii "polymarket_20260601_0000.bin"
  isRegularFile := true
  lastWriteTime := some june2026
  removable := true
  content := ()

/-- The cutoff wraps to a time in 2337, and the file goes. -/
theorem prune_respects_window_fails_at_100000 :
    ¬ RespectsWindow june2026 100000 ∧ pruneOldDataFiles june2026 100000 [freshFile] = [] := by
  have removed : freshFile.removed (fileCutoff june2026 100000) = true := by decide +kernel
  have gone : pruneOldDataFiles june2026 100000 [freshFile] = [] := by
    rw [pruneOldDataFiles, List.filter_cons_of_neg (by rw [removed]; decide)]
    rfl
  refine ⟨fun respects => ?_, gone⟩
  obtain ⟨-, mtime, read, old⟩ :=
    respects.files [freshFile] freshFile List.mem_cons_self (by rw [gone]; exact List.not_mem_nil)
  cases read
  exact absurd old (by decide +kernel)

end Tickscope.Harvester
