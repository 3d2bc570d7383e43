import Tickscope.Lib.Str

/-!
# Replacing a file by way of a temporary one

A program that writes a new version of a file to a temporary file and renames it. Any of its calls
may fail, and a write may be short. When no outcome is looked at, the rename happens whatever is
in the temporary file: `replace_path_iff` says when the file is afterwards what it was or what it
should be.
-/

namespace Tickscope.Lib

/-- A file and the temporary file beside it. -/
structure FilePair where
  path : Option Str
  tmp : Option Str
deriving DecidableEq

/-- The outcomes of the calls that write the temporary file and rename it. -/
structure ReplaceCalls where
  /-- `fopen(tmp, "w")` -/
  opened : Bool
  /-- the bytes of each `fprintf` that get through, by its number -/
  printed : Nat → Nat
  /-- the bytes that `fclose` leaves of what was printed -/
  closed : Nat
  /-- `rename(tmp, path)`, which fails anyway without a temporary file -/
  renamed : Bool

namespace ReplaceCalls

/-- What the stream takes of the texts, from call `i` on. -/
def accepted (printed : Nat → Nat) (i : Nat) : List Str → Str
  | [] => []
  | text :: texts => text.take (printed i) ++ accepted printed (i + 1) texts

/-- What is in the temporary file after `fclose`. -/
def written (calls : ReplaceCalls) (texts : List Str) : Str :=
  (accepted calls.printed 0 texts).take calls.closed

/-- Every text gets through, and `fclose` keeps all of it. -/
def Complete (calls : ReplaceCalls) (texts : List Str) : Prop :=
  (∀ entry ∈ texts.zipIdx, entry.1.length ≤ calls.printed entry.2) ∧
    texts.flatten.length ≤ calls.closed

instance (calls : ReplaceCalls) (texts : List Str) : Decidable (calls.Complete texts) :=
  inferInstanceAs (Decidable (_ ∧ _))

theorem length_accepted_le (printed : Nat → Nat) (i : Nat) (texts : List Str) :
    (accepted printed i texts).length ≤ texts.flatten.length := by
  induction texts generalizing i with
  | nil => exact Nat.le_refl _
  | cons text texts ih =>
      rw [accepted, List.flatten_cons, List.length_append, List.length_append, List.length_take]
      exact Nat.add_le_add (Nat.min_le_right _ _) (ih (i + 1))

/-- As many bytes as were printed are taken only if all are. -/
theorem accepted_eq_iff (printed : Nat → Nat) (i : Nat) (texts : List Str) :
    texts.flatten.length ≤ (accepted printed i texts).length ↔
      ∀ entry ∈ texts.zipIdx i, entry.1.length ≤ printed entry.2 := by
  induction texts generalizing i with
  | nil => exact ⟨fun _ => nofun, fun _ => Nat.le_refl _⟩
  | cons text texts ih =>
      rw [List.zipIdx_cons, List.forall_mem_cons, ← ih, accepted, List.flatten_cons,
        List.length_append, List.length_append, List.length_take]
      have le := length_accepted_le printed (i + 1) texts
      dsimp only
      omega

theorem accepted_eq_flatten {printed : Nat → Nat} {i : Nat} {texts : List Str}
    (all : ∀ entry ∈ texts.zipIdx i, entry.1.length ≤ printed entry.2) :
    accepted printed i texts = texts.flatten := by
  induction texts generalizing i with
  | nil => rfl
  | cons text texts ih =>
      rw [List.zipIdx_cons, List.forall_mem_cons] at all
      rw [accepted, List.flatten_cons, List.take_of_length_le all.1, ih all.2]

theorem written_of_complete {calls : ReplaceCalls} {texts : List Str}
    (complete : calls.Complete texts) : calls.written texts = texts.flatten := by
  rw [written, accepted_eq_flatten complete.1, List.take_of_length_le complete.2]

/-- **No text is complete by chance.** What is written reaches the length of the texts only if
every call was complete. -/
theorem length_written_le_iff (calls : ReplaceCalls) (texts : List Str) :
    texts.flatten.length ≤ (calls.written texts).length ↔ calls.Complete texts := by
  have le := length_accepted_le calls.printed 0 texts
  rw [Complete, ← accepted_eq_iff, written, List.length_take]
  omega

end ReplaceCalls

namespace FilePair

/-- The stream that is written to the temporary file. -/
def write (files : FilePair) (calls : ReplaceCalls) (texts : List Str) : FilePair :=
  if calls.opened then { files with tmp := some (calls.written texts) } else files

def rename (files : FilePair) (renamed : Bool) : FilePair :=
  match files.tmp with
  | none => files
  | some text => if renamed then ⟨some text, none⟩ else files

def replace (files : FilePair) (calls : ReplaceCalls) (texts : List Str) : FilePair :=
  (files.write calls texts).rename calls.renamed

/-- When the file will be what it was or `target`, for texts that are meant to make it `target`:
the rename fails, or the temporary file could be opened and gets all of `target` or happens to get
the old text, or it could not be opened and none is left over that differs from both. -/
def Safe (files : FilePair) (calls : ReplaceCalls) (texts : List Str) (target : Str) : Prop :=
  calls.renamed = false ∨
    if calls.opened then
      calls.Complete texts ∧ texts.flatten = target ∨ some (calls.written texts) = files.path
    else files.tmp = none ∨ files.tmp = files.path ∨ files.tmp = some target

instance (files : FilePair) (calls : ReplaceCalls) (texts : List Str) (target : Str) :
    Decidable (files.Safe calls texts target) :=
  inferInstanceAs (Decidable (calls.renamed = false ∨
    if calls.opened then
      calls.Complete texts ∧ texts.flatten = target ∨ some (calls.written texts) = files.path
    else files.tmp = none ∨ files.tmp = files.path ∨ files.tmp = some target))

@[simp] theorem path_write (files : FilePair) (calls : ReplaceCalls) (texts : List Str) :
    (files.write calls texts).path = files.path := by
  unfold write
  split <;> rfl

@[simp] theorem path_rename (files : FilePair) (renamed : Bool) :
    (files.rename renamed).path = if renamed then files.tmp.or files.path else files.path := by
  unfold rename
  cases files.tmp with
  | none => simp
  | some text => cases renamed <;> simp

@[simp] theorem tmp_write (files : FilePair) (calls : ReplaceCalls) (texts : List Str) :
    (files.write calls texts).tmp =
      if calls.opened then some (calls.written texts) else files.tmp := by
  unfold write
  split <;> rfl

/-- **What a replacement leaves.** -/
theorem replace_path_iff (files : FilePair) (calls : ReplaceCalls) {texts : List Str}
    {target : Str} (le : texts.flatten.length ≤ target.length) :
    (files.replace calls texts).path = files.path ∨
        (files.replace calls texts).path = some target ↔
      files.Safe calls texts target := by
  have reached : calls.written texts = target ↔
      calls.Complete texts ∧ texts.flatten = target := by
    constructor
    · intro same
      have complete := (calls.length_written_le_iff texts).mp (by rw [same]; exact le)
      exact ⟨complete, (ReplaceCalls.written_of_complete complete).symm.trans same⟩
    · exact fun both => (ReplaceCalls.written_of_complete both.1).trans both.2
  rw [replace, path_rename, tmp_write, path_write, Safe, ← reached]
  cases calls.renamed with
  | false => simp
  | true =>
      cases calls.opened with
      | true => simp [or_comm]
      | false =>
          cases files.tmp with
          | none => simp
          | some text => simp

end FilePair

end Tickscope.Lib
