import Mathlib.Data.List.Dedup
import Tickscope.Lib.StableSort

/-!
# Files read in the order of their names

A log of named records says what was appended to which file, in the order of the appends. Files that
are read in the order of their names give the records back in that order when the names of the log
are sorted (`readBack_of_sorted`).
-/

namespace Tickscope.Lib

variable {κ α : Type*} [DecidableEq κ]

/-- The records of one file. -/
def contents (log : List (κ × α)) (name : κ) : List α :=
  (log.filter fun entry => entry.1 = name).map Prod.snd

@[simp] theorem contents_nil (name : κ) : contents ([] : List (κ × α)) name = [] := rfl

@[simp] theorem contents_append (log later : List (κ × α)) (name : κ) :
    contents (log ++ later) name = contents log name ++ contents later name := by
  rw [contents, List.filter_append, List.map_append]
  rfl

section Sorted

variable (r : κ → κ → Prop) [DecidableRel r]

/-- The names of the files, each once, in order. -/
def names (log : List (κ × α)) : List κ := (log.map Prod.fst).dedup.insertionSort r

/-- The files one after the other. -/
def readBack (log : List (κ × α)) : List α := (names r log).flatMap (contents log)

variable {r}

theorem mem_names {log : List (κ × α)} {name : κ} :
    name ∈ names r log ↔ ∃ record, (name, record) ∈ log := by
  rw [names, List.mem_insertionSort, List.mem_dedup, List.mem_map]
  constructor
  · rintro ⟨⟨_, record⟩, mem, rfl⟩
    exact ⟨record, mem⟩
  · rintro ⟨record, mem⟩
    exact ⟨(name, record), mem, rfl⟩

/-- A file that has a record. -/
theorem mem_names_iff {log : List (κ × α)} {name : κ} :
    name ∈ names r log ↔ contents log name ≠ [] := by
  rw [mem_names, Ne, List.eq_nil_iff_forall_not_mem, not_forall_not]
  refine exists_congr fun record => ?_
  rw [contents, List.mem_map]
  constructor
  · exact fun mem => ⟨(name, record), List.mem_filter.mpr ⟨mem, decide_eq_true rfl⟩, rfl⟩
  · rintro ⟨⟨_, _⟩, filtered, rfl⟩
    obtain ⟨mem, same⟩ := List.mem_filter.mp filtered
    cases of_decide_eq_true same
    exact mem

theorem nodup_names (log : List (κ × α)) : (names r log).Nodup :=
  (List.perm_insertionSort r _).nodup_iff.mpr (List.nodup_dedup _)

/-- What a sorted log says first is about its first file. -/
theorem filter_append_filter [IsTrans κ r] [Std.Antisymm r] {name : κ}
    {log : List (κ × α)} (sorted : log.Pairwise fun e e' => r e.1 e'.1)
    (least : ∀ entry ∈ log, r name entry.1) (refl : r name name) :
    (log.filter fun entry => entry.1 = name) ++ (log.filter fun entry => entry.1 ≠ name) = log := by
  have front : (log.filter fun entry => entry.1 = name) = log.takeWhile fun entry => r entry.1 name := by
    rw [takeWhile_eq_filter sorted fun a b before after => ?_]
    · refine List.filter_congr fun entry mem => decide_eq_decide.mpr ⟨fun same => same ▸ refl, ?_⟩
      exact fun before => Std.Antisymm.antisymm _ _ before (least entry mem)
    · exact decide_eq_true (IsTrans.trans _ _ _ before (of_decide_eq_true after))
  have back : (log.filter fun entry => entry.1 ≠ name) = log.dropWhile fun entry => r entry.1 name := by
    rw [dropWhile_eq_filter sorted fun a b before after => ?_]
    · refine List.filter_congr fun entry mem => ?_
      rw [← decide_not, decide_eq_decide, not_iff_not]
      exact ⟨fun same => same ▸ refl,
        fun before => Std.Antisymm.antisymm _ _ before (least entry mem)⟩
    · exact decide_eq_true (IsTrans.trans _ _ _ before (of_decide_eq_true after))
  rw [front, back, List.takeWhile_append_dropWhile]

/-- Files in strict order that hold all of a sorted log. -/
theorem flatMap_contents [Std.Total r] [IsTrans κ r] [Std.Antisymm r] {files : List κ}
    (strict : files.Pairwise fun a b => r a b ∧ a ≠ b) {log : List (κ × α)}
    (sorted : log.Pairwise fun e e' => r e.1 e'.1) (all : ∀ entry ∈ log, entry.1 ∈ files) :
    files.flatMap (contents log) = log.map Prod.snd := by
  induction files generalizing log with
  | nil =>
      cases log with
      | nil => rfl
      | cons entry log => exact absurd (all entry List.mem_cons_self) List.not_mem_nil
  | cons name files ih =>
      obtain ⟨first, strict⟩ := List.pairwise_cons.mp strict
      have refl : r name name := (Std.Total.total name name).elim id id
      have least : ∀ entry ∈ log, r name entry.1 := by
        intro entry mem
        rcases List.mem_cons.mp (all entry mem) with same | later
        · rw [same]
          exact refl
        · exact (first _ later).1
      have others : files.flatMap (contents log) =
          files.flatMap (contents (log.filter fun entry => entry.1 ≠ name)) := by
        refine List.flatMap_congr fun later mem => ?_
        rw [contents, contents, List.filter_filter]
        refine congrArg _ (List.filter_congr fun entry _ => ?_)
        rw [← Bool.decide_and, decide_eq_decide]
        exact ⟨fun same => ⟨same, same ▸ (first later mem).2.symm⟩, And.left⟩
      have rest := ih strict (sorted.filter _) fun entry mem => by
        obtain ⟨mem, other⟩ := List.mem_filter.mp mem
        exact (List.mem_cons.mp (all entry mem)).resolve_left (of_decide_eq_true other)
      rw [List.flatMap_cons, others, rest, contents, ← List.map_append,
        filter_append_filter sorted least refl]

/-- **A log with sorted names.** -/
theorem readBack_of_sorted [Std.Total r] [IsTrans κ r] [Std.Antisymm r] {log : List (κ × α)}
    (sorted : (log.map Prod.fst).Pairwise r) : readBack r log = log.map Prod.snd := by
  refine flatMap_contents ?_ (List.pairwise_map.mp sorted) fun entry mem =>
    mem_names.mpr ⟨entry.2, mem⟩
  exact (List.pairwise_insertionSort r _).and (nodup_names log)

end Sorted

end Tickscope.Lib
