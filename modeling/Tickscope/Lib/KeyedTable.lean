import Mathlib.Data.List.Nodup
import Tickscope.Lib.FirstSeen

/-!
# Keyed tables

A table is a list of rows with a key. `rowOf key rows k` is the first row with key `k`,
`lastRowOf key rows k` the last one. A table without a repeated key is given by its keys, in
order, and by the row of each key (`ext_rowOf`); a left join with it takes every row of the left
table once (`leftJoin_of_nodup`).
-/

namespace Tickscope.Lib

variable {α κ : Type*} [DecidableEq κ] {key : α → κ}

def rowOf (key : α → κ) (rows : List α) (k : κ) : Option α := rows.find? fun row => key row = k

def lastRowOf (key : α → κ) (rows : List α) (k : κ) : Option α := rowOf key rows.reverse k

@[simp] theorem rowOf_nil (key : α → κ) (k : κ) : rowOf key [] k = none := rfl

theorem rowOf_cons (key : α → κ) (row : α) (rows : List α) (k : κ) :
    rowOf key (row :: rows) k = if key row = k then some row else rowOf key rows k := by
  unfold rowOf
  rw [List.find?_cons]
  by_cases same : key row = k <;> simp [same]

theorem rowOf_append (key : α → κ) (rows later : List α) (k : κ) :
    rowOf key (rows ++ later) k = (rowOf key rows k).or (rowOf key later k) :=
  List.find?_append

theorem key_of_rowOf {rows : List α} {k : κ} {row : α} (found : rowOf key rows k = some row) :
    key row = k := by
  have holds := List.find?_some found
  exact of_decide_eq_true holds

theorem mem_of_rowOf {rows : List α} {k : κ} {row : α} (found : rowOf key rows k = some row) :
    row ∈ rows := List.mem_of_find?_eq_some found

theorem rowOf_eq_none {rows : List α} {k : κ} : rowOf key rows k = none ↔ k ∉ rows.map key := by
  unfold rowOf
  rw [List.find?_eq_none, List.mem_map]
  constructor
  · intro absent found
    rcases found with ⟨row, mem, same⟩
    exact absent row mem (decide_eq_true same)
  · intro absent row mem same
    exact absent ⟨row, mem, of_decide_eq_true same⟩

/-- In a table without a repeated key, a row is the row of its key. -/
theorem rowOf_of_mem {rows : List α} (nodup : (rows.map key).Nodup) {row : α} (mem : row ∈ rows) :
    rowOf key rows (key row) = some row := by
  induction rows with
  | nil => cases mem
  | cons first rows ih =>
      rw [List.map_cons, List.nodup_cons] at nodup
      rw [rowOf_cons]
      rcases List.mem_cons.mp mem with rfl | mem
      · rw [if_pos rfl]
      · have other : key first ≠ key row := fun same =>
          nodup.1 (List.mem_map.mpr ⟨row, mem, same.symm⟩)
        rw [if_neg other, ih nodup.2 mem]

/-- The rows are those of the keys, in order. -/
theorem filterMap_rowOf {rows : List α} (nodup : (rows.map key).Nodup) :
    (rows.map key).filterMap (rowOf key rows) = rows := by
  rw [List.filterMap_map]
  have each : ∀ row ∈ rows, (rowOf key rows ∘ key) row = some (id row) :=
    fun row mem => rowOf_of_mem nodup mem
  rw [List.filterMap_eq_map_iff_forall_eq_some.mpr each, List.map_id]

/-- **Extensionality.** Keys and rows determine a table without a repeated key. -/
theorem ext_rowOf {rows rows' : List α} (nodup : (rows.map key).Nodup)
    (keys : rows.map key = rows'.map key) (same : ∀ k, rowOf key rows k = rowOf key rows' k) :
    rows = rows' := by
  have nodup' : (rows'.map key).Nodup := keys ▸ nodup
  rw [← filterMap_rowOf nodup, ← filterMap_rowOf nodup', keys]
  exact List.filterMap_congr fun k _ => same k

/-- A map that keeps every key acts on the row of each key. -/
theorem rowOf_map {f : α → α} (keeps : ∀ row, key (f row) = key row) (rows : List α) (k : κ) :
    rowOf key (rows.map f) k = (rowOf key rows k).map f := by
  induction rows with
  | nil => rfl
  | cons row rows ih =>
      rw [List.map_cons, rowOf_cons, rowOf_cons, keeps, ih]
      split <;> rfl

theorem lastRowOf_concat (key : α → κ) (rows : List α) (row : α) (k : κ) :
    lastRowOf key (rows ++ [row]) k = if key row = k then some row else lastRowOf key rows k := by
  rw [lastRowOf, List.reverse_append, List.reverse_singleton, List.singleton_append, rowOf_cons]
  rfl

theorem lastRowOf_eq_none {rows : List α} {k : κ} :
    lastRowOf key rows k = none ↔ k ∉ rows.map key := by
  rw [lastRowOf, rowOf_eq_none, List.map_reverse, List.mem_reverse]

/-- Without a repeated key the first row of a key is the last one. -/
theorem lastRowOf_of_nodup {rows : List α} (nodup : (rows.map key).Nodup) (k : κ) :
    lastRowOf key rows k = rowOf key rows k := by
  cases found : rowOf key rows k with
  | none => exact lastRowOf_eq_none.mpr (rowOf_eq_none.mp found)
  | some row =>
      have mem : row ∈ rows.reverse := List.mem_reverse.mpr (mem_of_rowOf found)
      have nodup' : (rows.reverse.map key).Nodup := by
        rw [List.map_reverse]
        exact List.nodup_reverse.mpr nodup
      rw [lastRowOf, ← key_of_rowOf found]
      exact rowOf_of_mem nodup' mem

/-! ## One replacement -/

/-- Replacing the row of a key, in its place. -/
theorem rowOf_set {rows : List α} (nodup : (rows.map key).Nodup) {i : Nat} {row : α}
    (here : (rows.map key)[i]? = some (key row)) (k : κ) :
    rowOf key (rows.set i row) k = if key row = k then some row else rowOf key rows k := by
  induction rows generalizing i with
  | nil => cases here
  | cons first rows ih =>
      rw [List.map_cons, List.nodup_cons] at nodup
      cases i with
      | zero =>
          rw [List.map_cons, List.getElem?_cons_zero, Option.some_inj] at here
          rw [List.set_cons_zero, rowOf_cons, rowOf_cons, here]
          split <;> rfl
      | succ i =>
          rw [List.map_cons, List.getElem?_cons_succ] at here
          have other : key first ≠ key row := fun same =>
            nodup.1 (same ▸ List.mem_of_getElem? here)
          rw [List.set_cons_succ, rowOf_cons, rowOf_cons, ih nodup.2 here]
          by_cases same : key first = k
          · rw [if_pos same, if_pos same, if_neg fun eq => other (same.trans eq.symm)]
          · rw [if_neg same, if_neg same]

omit [DecidableEq κ] in
theorem keys_set {rows : List α} {i : Nat} {row : α}
    (here : (rows.map key)[i]? = some (key row)) :
    (rows.set i row).map key = rows.map key := by
  rcases List.getElem?_eq_some_iff.mp here with ⟨lt, eq⟩
  rw [List.map_set, ← eq, List.set_getElem_self]

/-- Adding a row with a new key at the end. -/
theorem rowOf_concat {rows : List α} {row : α} (new : key row ∉ rows.map key) (k : κ) :
    rowOf key (rows ++ [row]) k = if key row = k then some row else rowOf key rows k := by
  rw [rowOf_append, rowOf_cons, rowOf_nil]
  by_cases same : key row = k
  · subst same
    rw [rowOf_eq_none.mpr new, if_pos rfl]
    rfl
  · rw [if_neg same, if_neg same, Option.or_none]

/-! ## Last positions -/

/-- The key is at `i` and not behind it. -/
def LastAt (ks : List κ) (k : κ) (i : Nat) : Prop := ks[i]? = some k ∧ k ∉ ks.drop (i + 1)

instance (ks : List κ) (k : κ) (i : Nat) : Decidable (LastAt ks k i) :=
  inferInstanceAs (Decidable (_ ∧ _))

omit [DecidableEq κ] in
theorem LastAt.lt {ks : List κ} {k : κ} {i : Nat} (last : LastAt ks k i) : i < ks.length :=
  (List.getElem?_eq_some_iff.mp last.1).1

omit [DecidableEq κ] in
theorem LastAt.mem {ks : List κ} {k : κ} {i : Nat} (last : LastAt ks k i) : k ∈ ks :=
  List.mem_of_getElem? last.1

theorem lastAt_concat (ks : List κ) (a k : κ) (i : Nat) :
    LastAt (ks ++ [a]) k i ↔ if a = k then i = ks.length else LastAt ks k i := by
  unfold LastAt
  rcases Nat.lt_trichotomy i ks.length with lt | same | gt
  · rw [List.getElem?_append_left lt, List.drop_append_of_le_length lt, List.mem_append,
      List.mem_singleton]
    split
    · rename_i same
      exact iff_of_false (fun both => both.2 (.inr same.symm)) lt.ne
    · rename_i other
      rw [or_iff_left (Ne.symm other)]
  · subst same
    have none : (ks ++ [a]).drop (ks.length + 1) = [] :=
      List.drop_eq_nil_of_le (by rw [List.length_append, List.length_singleton])
    rw [List.getElem?_concat_length, none, Option.some_inj, List.getElem?_eq_none le_rfl]
    split
    · rename_i same
      exact iff_of_true ⟨same, List.not_mem_nil⟩ rfl
    · rename_i other
      exact iff_of_false (fun both => other both.1) fun both => nomatch both.1
  · have beyond : (ks ++ [a])[i]? = none := List.getElem?_eq_none (by simp; omega)
    rw [beyond, List.getElem?_eq_none gt.le]
    refine iff_of_false (fun both => nomatch both.1) ?_
    split
    · exact gt.ne'
    · exact fun both => nomatch both.1

theorem lastAt_append {ks later : List κ} {k : κ} (absent : k ∉ later) (i : Nat) :
    LastAt (ks ++ later) k i ↔ LastAt ks k i := by
  induction later using List.reverseRecOn with
  | nil => rw [List.append_nil]
  | append_singleton later a ih =>
      rw [List.mem_append, not_or, List.mem_singleton] at absent
      rw [← List.append_assoc, lastAt_concat, if_neg fun same => absent.2 same.symm, ih absent.1]

theorem exists_lastAt {ks : List κ} {k : κ} (mem : k ∈ ks) : ∃ i, LastAt ks k i := by
  induction ks using List.reverseRecOn with
  | nil => cases mem
  | append_singleton ks a ih =>
      by_cases same : a = k
      · exact ⟨ks.length, (lastAt_concat ks a k _).mpr (by rw [if_pos same])⟩
      · have mem : k ∈ ks := by simpa [Ne.symm same] using mem
        rcases ih mem with ⟨i, last⟩
        exact ⟨i, (lastAt_concat ks a k i).mpr (by rw [if_neg same]; exact last)⟩

/-! ## Left joins -/

/-- `LEFT JOIN ... ON`: a row of the left table with each of its matches, or alone. -/
def leftJoin {τ : Type*} (on : τ → κ) (key : α → κ) (left : List τ) (right : List α) :
    List (τ × Option α) :=
  left.flatMap fun t =>
    match right.filter fun row => key row = on t with
    | [] => [(t, none)]
    | found => found.map fun row => (t, some row)

/-- Without a repeated key, the rows with a key are the row of the key. -/
theorem filter_key_of_nodup {rows : List α} (nodup : (rows.map key).Nodup) (k : κ) :
    (rows.filter fun row => key row = k) = (rowOf key rows k).toList := by
  induction rows with
  | nil => rfl
  | cons row rows ih =>
      rw [List.map_cons, List.nodup_cons] at nodup
      rw [List.filter_cons, rowOf_cons, ih nodup.2]
      by_cases same : key row = k
      · subst same
        rw [rowOf_eq_none.mpr nodup.1]
        simp
      · simp [same]

theorem leftJoin_of_nodup {τ : Type*} (on : τ → κ) (left : List τ) {right : List α}
    (nodup : (right.map key).Nodup) :
    leftJoin on key left right = left.map fun t => (t, rowOf key right (on t)) := by
  rw [List.map_eq_flatMap]
  refine List.flatMap_congr fun t _ => ?_
  rw [filter_key_of_nodup nodup]
  cases rowOf key right (on t) with
  | none => rfl
  | some row => rfl

end Tickscope.Lib
