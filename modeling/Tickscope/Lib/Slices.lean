import Mathlib.Data.Matrix.Basic

/-!
# Slices of two-dimensional arrays

An array of `n` rows and `m` columns is a matrix, and a slice is a block of it that fits:
`Slice.read` is `a[slice]`, and `Slice.add` is `a[slice] += b`. An entry of the array afterwards is
given by `Slice.add_read` inside the block and by `Slice.add_of_not_covers` outside it.
-/

namespace Tickscope.Lib

/-- A block of `h` rows and `w` columns in an array of `n` rows and `m` columns. -/
structure Slice (n m h w : Nat) where
  row : Nat
  col : Nat
  rows_fit : row + h ≤ n
  cols_fit : col + w ≤ m

namespace Slice

variable {n m h w : Nat} {α β : Type*}

/-- The cell of the array that a cell of the block is. -/
def cell (s : Slice n m h w) (i : Fin h) (j : Fin w) : Fin n × Fin m :=
  (⟨s.row + i, by have := s.rows_fit; omega⟩, ⟨s.col + j, by have := s.cols_fit; omega⟩)

/-- `a[slice]`. -/
def read (s : Slice n m h w) (a : Matrix (Fin n) (Fin m) α) : Matrix (Fin h) (Fin w) α :=
  Matrix.of fun i j => a (s.cell i j).1 (s.cell i j).2

/-- The cell of the array lies in the block. -/
def Covers (s : Slice n m h w) (i : Fin n) (j : Fin m) : Prop :=
  (s.row ≤ i ∧ i < s.row + h) ∧ s.col ≤ j ∧ j < s.col + w

instance (s : Slice n m h w) (i : Fin n) (j : Fin m) : Decidable (s.Covers i j) :=
  inferInstanceAs (Decidable (_ ∧ _))

/-- `a[slice] += b`, with `step` for `+`. -/
def add (s : Slice n m h w) (step : α → β → α) (a : Matrix (Fin n) (Fin m) α)
    (b : Matrix (Fin h) (Fin w) β) : Matrix (Fin n) (Fin m) α :=
  Matrix.of fun i j =>
    if covered : s.Covers i j then
      step (a i j) (b ⟨i - s.row, by have := covered.1; omega⟩
        ⟨j - s.col, by have := covered.2; omega⟩)
    else a i j

/-- What comes from another block of the array is the entry at the same place of that block. -/
theorem add_read (s t : Slice n m h w) (step : α → β → α) (a : Matrix (Fin n) (Fin m) α)
    (b : Matrix (Fin n) (Fin m) β) {i : Fin n} {j : Fin m} {p : Fin n × Fin m}
    (covered : s.Covers i j) (row : (p.1 : Nat) + s.row = i + t.row)
    (col : (p.2 : Nat) + s.col = j + t.col) :
    s.add step a (t.read b) i j = step (a i j) (b p.1 p.2) := by
  have rowOf : t.row + (i - s.row) = p.1 := by have := covered.1; omega
  have colOf : t.col + (j - s.col) = p.2 := by have := covered.2; omega
  simp only [add, Matrix.of_apply, dif_pos covered, read, cell, rowOf, colOf, Fin.eta]

theorem add_of_not_covers (s : Slice n m h w) (step : α → β → α) (a : Matrix (Fin n) (Fin m) α)
    (b : Matrix (Fin h) (Fin w) β) {i : Fin n} {j : Fin m} (outside : ¬ s.Covers i j) :
    s.add step a b i j = a i j := by
  rw [add, Matrix.of_apply, dif_neg outside]

end Slice

end Tickscope.Lib
