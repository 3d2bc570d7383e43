import Mathlib.Algebra.BigOperators.Group.List.Basic
import Mathlib.Algebra.Order.Field.Rat
import Mathlib.Algebra.Order.Group.Unbundled.Abs

/-!
# Python's floats

A program over floats is written over any type that has their operations, and no law is asked of
these: a sum may round, and round otherwise in another order. Over `ℚ` the same program is the
exact one. Over `Float` it is the one that runs, and `floatValue` is the number of a double.
-/

namespace Tickscope.Lib

/-- What Python's floats have beside the operators. `sum` need not be a fold: since 3.12 it
compensates. -/
class PyFloat (D : Type*) where
  abs : D → D
  sum : List D → D

instance : PyFloat ℚ := ⟨fun x => |x|, List.sum⟩

instance : PyFloat Float := ⟨Float.abs, List.foldl (· + ·) 0⟩

@[simp] theorem PyFloat.abs_rat (x : ℚ) : PyFloat.abs x = |x| := rfl

@[simp] theorem PyFloat.sum_rat (xs : List ℚ) : PyFloat.sum xs = xs.sum := rfl

/-- `min(a, b)`. -/
def pyMin {D : Type*} [LT D] [DecidableLT D] (a b : D) : D := if b < a then b else a

@[simp] theorem pyMin_rat (a b : ℚ) : pyMin a b = min a b := by
  rw [pyMin, min_def]
  split
  · rename_i lt
    exact (if_neg (not_le.mpr lt)).symm
  · rename_i le
    exact (if_pos (not_lt.mp le)).symm

/-- `x == 0.0`, which both zeros are and NaN is not. -/
def IsZero {D : Type*} [Zero D] [LE D] (x : D) : Prop := x ≤ 0 ∧ 0 ≤ x

instance {D : Type*} [Zero D] [LE D] [DecidableLE D] (x : D) : Decidable (IsZero x) :=
  inferInstanceAs (Decidable (_ ∧ _))

@[simp] theorem isZero_rat (x : ℚ) : IsZero x ↔ x = 0 := le_antisymm_iff.symm

/-- The number that a finite double stands for. -/
def floatValue (x : Float) : ℚ :=
  match x.toModel.unpack with
  | .finite .positive mantissa exponent _ => mantissa * 2 ^ exponent
  | .finite .negative mantissa exponent _ => -(mantissa * 2 ^ exponent)
  | _ => 0

example : floatValue 0.75 = 3 / 4 := by decide +kernel

end Tickscope.Lib
