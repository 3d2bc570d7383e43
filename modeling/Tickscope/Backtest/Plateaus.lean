import Mathlib.Data.Rat.Defs
import Tickscope.Lib.Slices

/-!
# Plateaus of a parameter grid

`_find_plateaus` of `research/backtest/optimizer.py`. It counts the neighbours of all cells at once:
the mask of the high cells, shifted by one row or column, is added to a block of the counts, and a
grid with a single row or column has no such block. `find_plateaus_iff` is the definition of a
plateau cell by cell.
-/

namespace Tickscope.Backtest

open Tickscope.Lib

/-! ## Doubles -/

/-- The doubles that are not NaN. An operation may round, and its result may be NaN. -/
class DoubleArith (K : Type*) where
  sub : K → K → Option K
  mul : K → K → Option K

/-- Exact arithmetic, which never comes to NaN. -/
instance : DoubleArith ℚ where
  sub a b := some (a - b)
  mul a b := some (a * b)

/-- `none` is NaN. -/
abbrev Double (K : Type*) := Option K

namespace Double

variable {K : Type*} [LinearOrder K] [DoubleArith K]

def sub (a b : Double K) : Double K := a.bind fun a => b.bind fun b => DoubleArith.sub a b

def mul (a b : Double K) : Double K := a.bind fun a => b.bind fun b => DoubleArith.mul a b

/-- `a <= b`: every comparison with NaN is false. -/
def le : Double K → Double K → Bool
  | some a, some b => a ≤ b
  | _, _ => false

/-- `a < b`. -/
def lt : Double K → Double K → Bool
  | some a, some b => a < b
  | _, _ => false

end Double

/-! ## The counts -/

variable {K : Type*} [LinearOrder K] [Zero K] [One K] [DoubleArith K] {n m : Nat}

/-- An entry of `neighbour_count` after `+=` of a flag. -/
def countFlag (count : Nat) (flag : Bool) : Nat := count + flag.toNat

/-- `neighbour_count[target] += near_max[source]`. -/
def addNeighbours {h w : Nat} (target source : Slice n m h w) (nearMax : Matrix (Fin n) (Fin m) Bool)
    (count : Matrix (Fin n) (Fin m) Nat) : Matrix (Fin n) (Fin m) Nat :=
  target.add countFlag count (source.read nearMax)

/-- `[:-1, :]`. -/
def initRows (several : 1 < n) : Slice n m (n - 1) m := ⟨0, 0, by omega, by omega⟩

/-- `[1:, :]`. -/
def tailRows (several : 1 < n) : Slice n m (n - 1) m := ⟨1, 0, by omega, by omega⟩

/-- `[:, :-1]`. -/
def initCols (several : 1 < m) : Slice n m n (m - 1) := ⟨0, 0, by omega, by omega⟩

/-- `[:, 1:]`. -/
def tailCols (several : 1 < m) : Slice n m n (m - 1) := ⟨0, 1, by omega, by omega⟩

/-- The two additions for `n_rows > 1`. -/
def countRows (nearMax : Matrix (Fin n) (Fin m) Bool) (count : Matrix (Fin n) (Fin m) Nat) :
    Matrix (Fin n) (Fin m) Nat :=
  if several : 1 < n then
    addNeighbours (tailRows several) (initRows several) nearMax
      (addNeighbours (initRows several) (tailRows several) nearMax count)
  else count

/-- The two additions for `n_cols > 1`. -/
def countCols (nearMax : Matrix (Fin n) (Fin m) Bool) (count : Matrix (Fin n) (Fin m) Nat) :
    Matrix (Fin n) (Fin m) Nat :=
  if several : 1 < m then
    addNeighbours (tailCols several) (initCols several) nearMax
      (addNeighbours (initCols several) (tailCols several) nearMax count)
  else count

def cutoff (globalMax threshold : Double K) : Double K :=
  .mul globalMax (.sub (some 1) threshold)

/-- `_find_plateaus`. -/
def findPlateaus (z : Matrix (Fin n) (Fin m) (Double K)) (globalMax threshold : Double K) :
    Matrix (Fin n) (Fin m) Bool :=
  if globalMax.le (some 0) then Matrix.of fun _ _ => false
  else
    let nearMax := Matrix.of fun i j => (cutoff globalMax threshold).le (z i j)
    let neighbourCount := countCols nearMax (countRows nearMax (Matrix.of fun _ _ => 0))
    Matrix.of fun i j => nearMax i j && decide (2 ≤ neighbourCount i j)

/-! ## Cell by cell -/

/-- The cell above, unless it is in the first row. -/
def above (i : Fin n) (j : Fin m) : List (Fin n × Fin m) :=
  if inside : 0 < (i : Nat) then [(⟨i - 1, by omega⟩, j)] else []

def below (i : Fin n) (j : Fin m) : List (Fin n × Fin m) :=
  if inside : (i : Nat) + 1 < n then [(⟨i + 1, inside⟩, j)] else []

def left (i : Fin n) (j : Fin m) : List (Fin n × Fin m) :=
  if inside : 0 < (j : Nat) then [(i, ⟨j - 1, by omega⟩)] else []

def right (i : Fin n) (j : Fin m) : List (Fin n × Fin m) :=
  if inside : (j : Nat) + 1 < m then [(i, ⟨j + 1, inside⟩)] else []

/-- The cells next to a cell, as far as the grid has them. -/
def neighbours (i : Fin n) (j : Fin m) : List (Fin n × Fin m) :=
  above i j ++ below i j ++ left i j ++ right i j

/-- A cell of the target block gets its flag from the cell at the same place of the source block. -/
theorem addNeighbours_eq {h w : Nat} {target source : Slice n m h w}
    (nearMax : Matrix (Fin n) (Fin m) Bool) (count : Matrix (Fin n) (Fin m) Nat) {i : Fin n}
    {j : Fin m} {Inside : Prop} [Decidable Inside] {cell : Inside → Fin n × Fin m}
    (covers : target.Covers i j ↔ Inside)
    (row : ∀ inside, ((cell inside).1 : Nat) + target.row = i + source.row)
    (col : ∀ inside, ((cell inside).2 : Nat) + target.col = j + source.col) :
    addNeighbours target source nearMax count i j =
      count i j + (if inside : Inside then [cell inside] else []).countP
        fun p => nearMax p.1 p.2 := by
  rw [addNeighbours]
  by_cases inside : Inside
  · rw [Slice.add_read target source countFlag count nearMax (covers.mpr inside) (row inside)
        (col inside),
      dif_pos inside, countFlag, List.countP_singleton, Bool.toNat, Bool.cond_eq_ite]
  · rw [Slice.add_of_not_covers target countFlag count _ (mt covers.mp inside), dif_neg inside]
    rfl

/-- The two additions give each cell its neighbours in the rows below and above it. -/
theorem countRows_eq (nearMax : Matrix (Fin n) (Fin m) Bool) (count : Matrix (Fin n) (Fin m) Nat)
    (i : Fin n) (j : Fin m) :
    countRows nearMax count i j =
      count i j + (below i j).countP (fun p => nearMax p.1 p.2) +
        (above i j).countP fun p => nearMax p.1 p.2 := by
  have hi := i.isLt
  have hj := j.isLt
  rw [countRows, above, below]
  split
  case isTrue several =>
    have init : (initRows several).Covers i j ↔ (i : Nat) + 1 < n := by
      simp only [Slice.Covers, initRows]
      omega
    have tail : (tailRows several).Covers i j ↔ 0 < (i : Nat) := by
      simp only [Slice.Covers, tailRows]
      omega
    refine (addNeighbours_eq nearMax _ tail (fun inside => ?_) fun _ => rfl).trans
      (congrArg (· + _) (addNeighbours_eq nearMax count init (fun _ => rfl) fun _ => rfl))
    exact Nat.sub_add_cancel inside
  case isFalse single =>
    rw [dif_neg (by omega), dif_neg (by omega)]
    rfl

theorem countCols_eq (nearMax : Matrix (Fin n) (Fin m) Bool) (count : Matrix (Fin n) (Fin m) Nat)
    (i : Fin n) (j : Fin m) :
    countCols nearMax count i j =
      count i j + (right i j).countP (fun p => nearMax p.1 p.2) +
        (left i j).countP fun p => nearMax p.1 p.2 := by
  have hi := i.isLt
  have hj := j.isLt
  rw [countCols, left, right]
  split
  case isTrue several =>
    have init : (initCols several).Covers i j ↔ (j : Nat) + 1 < m := by
      simp only [Slice.Covers, initCols]
      omega
    have tail : (tailCols several).Covers i j ↔ 0 < (j : Nat) := by
      simp only [Slice.Covers, tailCols]
      omega
    refine (addNeighbours_eq nearMax _ tail (fun _ => rfl) fun inside => ?_).trans
      (congrArg (· + _) (addNeighbours_eq nearMax count init (fun _ => rfl) fun _ => rfl))
    exact Nat.sub_add_cancel inside
  case isFalse single =>
    rw [dif_neg (by omega), dif_neg (by omega)]
    rfl

/-- The early return is for a maximum that is not positive, or the maximum is NaN, and then no value
reaches the cutoff. -/
theorem le_zero_or_lt (globalMax threshold : Double K) :
    globalMax.le (some 0) = true ∧ Double.lt (some 0) globalMax = false ∨
      globalMax.le (some 0) = false ∧ Double.lt (some 0) globalMax = true ∨
        globalMax.le (some 0) = false ∧ ∀ value, (cutoff globalMax threshold).le value = false := by
  rcases globalMax with _ | g
  · exact .inr (.inr ⟨rfl, fun _ => rfl⟩)
  · rcases le_or_gt g 0 with le | gt
    · exact .inl ⟨decide_eq_true le, decide_eq_false le.not_gt⟩
    · exact .inr (.inl ⟨decide_eq_false gt.not_ge, decide_eq_true gt⟩)

/-- The counts hold for each cell how many of the cells next to it have the flag. -/
theorem neighbourCount_eq (nearMax : Matrix (Fin n) (Fin m) Bool) (i : Fin n) (j : Fin m) :
    countCols nearMax (countRows nearMax (Matrix.of fun _ _ => 0)) i j =
      (neighbours i j).countP fun p => nearMax p.1 p.2 := by
  rw [countCols_eq, countRows_eq, neighbours, List.countP_append, List.countP_append,
    List.countP_append, Matrix.of_apply]
  omega

/-- A cell is marked exactly when the maximum is positive and the cell and at least two of the cells
next to it reach the cutoff. -/
theorem find_plateaus_iff (z : Matrix (Fin n) (Fin m) (Double K)) (globalMax threshold : Double K)
    (i : Fin n) (j : Fin m) :
    findPlateaus z globalMax threshold i j = true ↔
      Double.lt (some 0) globalMax = true ∧
        (cutoff globalMax threshold).le (z i j) = true ∧
          2 ≤ (neighbours i j).countP fun p =>
            (cutoff globalMax threshold).le (z p.1 p.2) := by
  rw [findPlateaus]
  rcases le_zero_or_lt globalMax threshold with
    ⟨le, notPositive⟩ | ⟨notLe, positive⟩ | ⟨notLe, never⟩
  · rw [if_pos le, notPositive, Matrix.of_apply]
    exact iff_of_false Bool.false_ne_true fun marked => Bool.false_ne_true marked.1
  · rw [notLe, if_neg Bool.false_ne_true, Matrix.of_apply, Bool.and_eq_true, decide_eq_true_iff,
      neighbourCount_eq]
    exact (and_iff_right positive).symm
  · rw [notLe, if_neg Bool.false_ne_true, Matrix.of_apply, Matrix.of_apply, never]
    exact iff_of_false Bool.false_ne_true fun marked => Bool.false_ne_true marked.2.1

end Tickscope.Backtest
