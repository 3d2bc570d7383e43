import Mathlib.Data.List.Defs
import Mathlib.Data.List.TakeWhile
import Tickscope.Lib.StableSort

/-!
# Columns

Computing with columns instead of rows: an array is a list, an array of booleans selects
(`mask`), an array of positions gathers (`gather`), a value is looked up in a sorted array by
its position (`searchsortedLeft`, `searchsortedRight`), and a long array is taken in slices
(`batches`). When all columns come from one list of rows, each operation is one on the rows.
-/

namespace Tickscope.Lib

variable {α β γ δ ε : Type*}

/-- The number of entries of a sorted array that are less than `v`. -/
def searchsortedLeft (a : List Int) (v : Int) : Nat := (a.takeWhile (· < v)).length

/-- The number of entries of a sorted array that are at most `v`. -/
def searchsortedRight (a : List Int) (v : Int) : Nat := (a.takeWhile (· ≤ v)).length

/-- The entries whose flag is set. -/
def mask (keep : List Bool) (xs : List α) : List α := ((keep.zip xs).filter Prod.fst).map Prod.snd

/-- The entries at the given positions. -/
def gather [Inhabited α] (xs : List α) (idx : List Int) : List α :=
  idx.map fun i => xs.getD i.toNat default

/-- The slices `xs[i : i + n]` for `i` in `range(0, len(xs), n)`. -/
def batches (n : Nat) (xs : List α) : List (List α) :=
  (List.range ((xs.length + n - 1) / n)).map fun i => (xs.drop (i * n)).take n

theorem flatten_slices (n : Nat) (xs : List α) (k : Nat) :
    ((List.range k).map fun i => (xs.drop (i * n)).take n).flatten = xs.take (k * n) := by
  induction k with
  | zero => rw [Nat.zero_mul]; rfl
  | succ k ih =>
      rw [List.range_succ, List.map_append, List.flatten_append, ih, Nat.succ_mul, List.take_add]
      exact congrArg _ (List.flatten_singleton)

theorem flatten_batches {n : Nat} (pos : 0 < n) (xs : List α) : (batches n xs).flatten = xs := by
  rw [batches, flatten_slices]
  refine List.take_of_length_le ?_
  have covered := Nat.lt_div_mul_add pos (a := xs.length + n - 1)
  omega

theorem mask_map (rows : List α) (p : α → Bool) (f : α → β) :
    mask (rows.map p) (rows.map f) = (rows.filter p).map f := by
  rw [mask, List.zip_map', List.filter_map, List.map_map]
  rfl

theorem gather_map [Inhabited β] (xs : List β) (rows : List α) (f : α → Int) :
    gather xs (rows.map f) = rows.map fun row => xs.getD (f row).toNat default := by
  rw [gather, List.map_map]
  rfl

theorem zipWith_columns (g : β → γ → δ) (rows : List α) (f : α → β) (f' : α → γ) :
    List.zipWith g (rows.map f) (rows.map f') = rows.map fun row => g (f row) (f' row) := by
  rw [List.zipWith_map, List.zipWith_self]

theorem zipWith3_columns (g : β → γ → δ → ε) (rows : List α) (f : α → β) (f' : α → γ)
    (f'' : α → δ) : List.zipWith3 g (rows.map f) (rows.map f') (rows.map f'') =
      rows.map fun row => g (f row) (f' row) (f'' row) := by
  induction rows with
  | nil => rfl
  | cons row rows ih => exact congrArg _ ih

theorem map_filter_filter (rows : List α) (p q : α → Bool) (f : α → β) :
    ((rows.filter p).filter q).map f =
      rows.filterMap fun row => if p row && q row then some (f row) else none := by
  induction rows with
  | nil => rfl
  | cons row rows ih =>
      rw [List.filter_cons, List.filterMap_cons, ← ih]
      cases p row with
      | false => rfl
      | true =>
          rw [if_pos rfl, List.filter_cons]
          cases q row <;> rfl

/-- Two selections, each of which gives up when nothing is left. -/
theorem getD_unless_empty (rows : List α) (p q : α → Bool) (f : α → β) :
    (if rows.filter p = [] then none
      else if (rows.filter p).filter q = [] then none
      else some (((rows.filter p).filter q).map f)).getD [] =
      rows.filterMap fun row => if p row && q row then some (f row) else none := by
  rw [← map_filter_filter]
  split
  · rename_i nothing
    rw [nothing]
    rfl
  · split
    · rename_i nothing
      rw [nothing]
      rfl
    · rfl

theorem getD_unless_none (rows : List α) (p : α → Bool) (f : α → β) :
    (if rows.filter p = [] then none else some ((rows.filter p).map f)).getD [] =
      rows.filterMap fun row => if p row then some (f row) else none := by
  have once := getD_unless_empty rows p (fun _ => true) f
  simp only [List.filter_true, Bool.and_true] at once
  rw [← once]
  split <;> rfl

theorem any_map_id (rows : List α) (p : α → Bool) :
    (rows.map p).any id = false ↔ rows.filter p = [] := by
  rw [List.any_map, List.any_eq_false, List.filter_eq_nil_iff]
  rfl

theorem length_searchsortedRight (rows : List α) (key : α → Int) (v : Int) :
    searchsortedRight (rows.map key) v = (rows.takeWhile fun row => key row ≤ v).length := by
  rw [searchsortedRight, List.takeWhile_map, List.length_map]
  rfl

/-- The row before the position of `v` is the last one that is at most `v`. -/
theorem getElem?_searchsortedRight {rows : List α} {key : α → Int} {v : Int}
    (some : searchsortedRight (rows.map key) v ≠ 0) :
    rows[searchsortedRight (rows.map key) v - 1]? =
      (rows.takeWhile fun row => key row ≤ v).getLast? := by
  have length := length_searchsortedRight rows key v
  have front := List.takeWhile_append_dropWhile (p := fun row => decide (key row ≤ v)) (l := rows)
  have within : searchsortedRight (rows.map key) v - 1 <
      (rows.takeWhile fun row => key row ≤ v).length := by omega
  rw [List.getLast?_eq_getElem?, ← length, ← List.getElem?_append_left within, front]

/-- Searching from the right, stepping back one position: no row is at most `v`, or the last one
that is stands there. -/
theorem searchsortedRight_cases (rows : List α) (key : α → Int) (v : Int) :
    (¬0 ≤ (searchsortedRight (rows.map key) v : Int) - 1 ∧
        (rows.takeWhile fun row => key row ≤ v).getLast? = none) ∨
      ∃ row, 0 ≤ (searchsortedRight (rows.map key) v : Int) - 1 ∧
        (rows.takeWhile fun row => key row ≤ v).getLast? = some row ∧
        rows[((searchsortedRight (rows.map key) v : Int) - 1).toNat]? = some row := by
  by_cases found : searchsortedRight (rows.map key) v = 0
  · refine Or.inl ⟨by omega, ?_⟩
    rw [length_searchsortedRight] at found
    rw [List.length_eq_zero_iff.mp found, List.getLast?_nil]
  · have nonempty := found
    rw [length_searchsortedRight] at nonempty
    have some := List.length_pos_iff.mp (Nat.pos_of_ne_zero nonempty)
    have last := List.getLast?_eq_some_getLast some
    have position : ((searchsortedRight (rows.map key) v : Int) - 1).toNat =
        searchsortedRight (rows.map key) v - 1 := by omega
    exact Or.inr ⟨_, by omega, last, by rw [position, getElem?_searchsortedRight found, last]⟩

theorem getD_map [Inhabited β] {rows : List α} {i : Nat} {row : α} (at_ : rows[i]? = some row)
    (f : α → β) : (rows.map f).getD i default = f row := by
  rw [List.getD_eq_getElem?_getD, List.getElem?_map, at_]
  rfl

theorem length_searchsortedLeft (rows : List α) (key : α → Int) (v : Int) :
    searchsortedLeft (rows.map key) v = (rows.takeWhile fun row => key row < v).length := by
  rw [searchsortedLeft, List.takeWhile_map, List.length_map]
  rfl

/-- Between the two positions stand the rows whose key is between the two values. -/
theorem slice_searchsorted {rows : List α} {key : α → Int}
    (sorted : rows.Pairwise fun a b => key a ≤ key b) (lo hi : Int) :
    (rows.drop (searchsortedLeft (rows.map key) lo)).take
        (searchsortedRight (rows.map key) hi - searchsortedLeft (rows.map key) lo) =
      rows.filter fun row => lo ≤ key row ∧ key row ≤ hi := by
  have below := takeWhile_eq_filter sorted (p := fun row => decide (key row < lo))
    fun a b le lt => decide_eq_true (le.trans_lt (of_decide_eq_true lt))
  have upTo := takeWhile_eq_filter sorted (p := fun row => decide (key row ≤ hi))
    fun a b le holds => decide_eq_true (le.trans (of_decide_eq_true holds))
  have front : rows.take (rows.filter fun row => key row ≤ hi).length =
      rows.filter fun row => key row ≤ hi := by
    rw [← upTo]
    exact (List.prefix_iff_eq_take.mp (List.takeWhile_prefix _)).symm
  rw [length_searchsortedLeft, length_searchsortedRight, ← List.drop_take, upTo, below, front]
  rcases le_or_gt lo hi with le | gt
  · -- all rows below `lo` are in front of the rows up to `hi`
    have same : rows.filter (fun row => key row < lo) =
        (rows.filter fun row => key row ≤ hi).takeWhile fun row => key row < lo := by
      rw [takeWhile_eq_filter (sorted.filter _) fun a b le lt =>
        decide_eq_true (le.trans_lt (of_decide_eq_true lt)), List.filter_filter]
      refine List.filter_congr fun row _ => ?_
      rw [Bool.eq_iff_iff, Bool.and_eq_true, decide_eq_true_iff, decide_eq_true_iff]
      omega
    have split := List.takeWhile_append_dropWhile (p := fun row => decide (key row < lo))
      (l := rows.filter fun row => key row ≤ hi)
    rw [← split, same, List.drop_left, dropWhile_eq_filter (sorted.filter _) fun a b le lt =>
        decide_eq_true (le.trans_lt (of_decide_eq_true lt)), List.filter_filter]
    refine List.filter_congr fun row _ => ?_
    rw [Bool.eq_iff_iff, Bool.and_eq_true, decide_eq_true_iff, decide_eq_true_iff,
      Bool.not_eq_true', decide_eq_false_iff_not, not_lt]
  · have none : rows.filter (fun row => lo ≤ key row ∧ key row ≤ hi) = [] :=
      List.filter_eq_nil_iff.mpr fun row _ both => by
        have both := of_decide_eq_true both
        omega
    have fewer : (rows.filter fun row => key row ≤ hi).length ≤
        (rows.filter fun row => key row < lo).length := by
      rw [← List.countP_eq_length_filter, ← List.countP_eq_length_filter]
      exact List.countP_mono_left fun row _ le =>
        decide_eq_true (by have le := of_decide_eq_true le; omega)
    rw [none, List.drop_eq_nil_of_le fewer]

/-- The position of the first hit in a slice, looked up in another column. -/
theorem getElem?_findIdx?_slice (rows : List α) (f : α → β) (g : α → γ) (p : β → Bool)
    (s n : Nat) :
    ((((rows.map f).drop s).take n).findIdx? p).bind (fun k => (rows.map g)[s + k]?) =
      (((rows.drop s).take n).find? fun row => p (f row)).map g := by
  rw [← List.map_drop, ← List.map_take, List.findIdx?_map, List.find?_eq_bind_findIdx?_getElem?,
    Option.map_bind]
  cases found : ((rows.drop s).take n).findIdx? (p ∘ f) with
  | none =>
      rw [show (fun row => p (f row)) = p ∘ f from rfl, found]
      rfl
  | some k =>
      obtain ⟨within, -⟩ := List.findIdx?_eq_some_iff_getElem.mp found
      rw [List.length_take] at within
      rw [show (fun row => p (f row)) = p ∘ f from rfl, found, Option.bind_some, Option.bind_some,
        List.getElem?_map, Function.comp_apply, List.getElem?_take_of_lt (by omega),
        List.getElem?_drop]

end Tickscope.Lib
