import Mathlib.Data.List.AList
import Mathlib.Data.List.Sort
import Tickscope.Lib.Str

/-!
# A directory with times of modification

Files by name, each with the time of its last write. Opening an existing file for appending changes
nothing, an empty write neither, and what is written to a file that has been removed is gone with it.
A file that is old enough stays so while nobody writes to it (`Aged.of_lookup`).
-/

namespace Tickscope.Lib

structure FileData (α : Type*) where
  mtime : Nat
  data : List α

abbrev Directory (α : Type*) := AList fun _ : Str => FileData α

namespace Directory

variable {α : Type*}

/-! ## What is done to a file -/

/-- `fopen(name, "ab")`. -/
def create (d : Directory α) (now : Nat) (name : Str) : Directory α :=
  if (d.lookup name).isSome then d else d.insert name ⟨now, []⟩

/-- A write to the file of this name. -/
def append (d : Directory α) (now : Nat) (name : Str) (rows : List α) : Directory α :=
  match d.lookup name with
  | none => d
  | some file => if rows.isEmpty then d else d.insert name ⟨now, file.data ++ rows⟩

/-- The file has not been written for longer than `age`. -/
def Aged (age now : Nat) (d : Directory α) (name : Str) : Prop :=
  ∃ file, d.lookup name = some file ∧ file.mtime + age < now

instance (age now : Nat) (d : Directory α) (name : Str) : Decidable (Aged age now d name) :=
  match found : d.lookup name with
  | none => .isFalse fun ⟨file, present, _⟩ => by rw [found] at present; cases present
  | some file =>
      decidable_of_iff (file.mtime + age < now)
        ⟨fun lt => ⟨file, found, lt⟩, fun ⟨file', present, lt⟩ => by
          rw [found] at present
          cases present
          exact lt⟩

/-- `find` for some names and an age, and `sort`. -/
def find (selects : Str → Bool) (age now : Nat) (d : Directory α) : List Str :=
  (d.keys.filter fun name => selects name && decide (Aged age now d name)).insertionSort (· ≤ ·)

/-! ## What is in a file afterwards -/

theorem lookup_create_self {d : Directory α} {name : Str} (absent : d.lookup name = none)
    (now : Nat) : (d.create now name).lookup name = some ⟨now, []⟩ := by
  rw [create, absent]
  exact AList.lookup_insert d

theorem create_of_some {d : Directory α} {name : Str} {file : FileData α}
    (present : d.lookup name = some file) (now : Nat) : d.create now name = d := by
  rw [create, present]
  rfl

theorem lookup_create_of_ne {name other : Str} (ne : other ≠ name) (d : Directory α) (now : Nat) :
    (d.create now name).lookup other = d.lookup other := by
  unfold create
  split
  · rfl
  · exact AList.lookup_insert_ne ne

theorem lookup_append_self {d : Directory α} {name : Str} {file : FileData α}
    (present : d.lookup name = some file) (now : Nat) (rows : List α) :
    (d.append now name rows).lookup name =
      some ⟨if rows.isEmpty then file.mtime else now, file.data ++ rows⟩ := by
  rw [append, present]
  dsimp only
  cases rows with
  | nil =>
      rw [List.append_nil]
      exact present
  | cons row rows => exact AList.lookup_insert d

theorem lookup_append_of_ne {name other : Str} (ne : other ≠ name) (d : Directory α) (now : Nat)
    (rows : List α) : (d.append now name rows).lookup other = d.lookup other := by
  unfold append
  split
  · rfl
  · split
    · rfl
    · exact AList.lookup_insert_ne ne

/-! ## Old files -/

theorem mem_find {selects : Str → Bool} {age now : Nat} {d : Directory α} {name : Str} :
    name ∈ d.find selects age now ↔ selects name = true ∧ Aged age now d name := by
  rw [find, List.mem_insertionSort, List.mem_filter, Bool.and_eq_true, decide_eq_true_eq]
  refine ⟨And.right, fun both => ⟨?_, both⟩⟩
  obtain ⟨-, file, present, -⟩ := both
  exact AList.mem_keys.mp (AList.lookup_isSome.mp (by rw [present]; rfl))

theorem nodup_find (selects : Str → Bool) (age now : Nat) (d : Directory α) :
    (d.find selects age now).Nodup :=
  (List.perm_insertionSort _ _).nodup_iff.mpr (d.keys_nodup.filter _)

/-- A file that nobody has written to keeps its age. -/
theorem Aged.of_lookup {age now now' : Nat} {d d' : Directory α} {name : Str}
    (aged : Aged age now d name) (le : now ≤ now') (same : d'.lookup name = d.lookup name) :
    Aged age now' d' name := by
  obtain ⟨file, present, old⟩ := aged
  exact ⟨file, same.trans present, old.trans_le le⟩

end Directory

end Tickscope.Lib
