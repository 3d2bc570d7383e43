import Mathlib.Algebra.Order.Ring.Nat
import Mathlib.Order.WithBot

/-!
# Natural numbers as doubles

A double that is not negative and has no fraction, or infinity: conversion from a natural number
and multiplication by one, to the nearest double with ties to even.
-/

namespace Tickscope.Lib

/-- The nearest number with at most 53 significant bits. -/
def roundNat (n : Nat) : Nat :=
  let ulp := 2 ^ (n.log2 - 52)
  let quotient := n / ulp
  let remainder := n % ulp
  if ulp < 2 * remainder ∨ 2 * remainder = ulp ∧ quotient % 2 = 1 then (quotient + 1) * ulp
  else quotient * ulp

def toDouble (n : Nat) : WithTop Nat := if (roundNat n).log2 < 1024 then .some (roundNat n) else ⊤

/-- The product with a natural number that is a double. -/
def timesDouble (x : WithTop Nat) (k : Nat) : WithTop Nat :=
  match x with
  | ⊤ => ⊤
  | .some n => toDouble (n * k)

theorem log2_lt_of_lt {n k : Nat} (pos : 0 < k) (lt : n < 2 ^ k) : n.log2 < k := by
  rcases Nat.eq_zero_or_pos n with rfl | pos'
  · exact pos
  · exact (Nat.log2_lt pos'.ne').mpr lt

/-- Up to 53 bits nothing is rounded. -/
theorem roundNat_of_lt {n : Nat} (lt : n < 2 ^ 53) : roundNat n = n := by
  have bits : n.log2 - 52 = 0 :=
    Nat.sub_eq_zero_of_le (Nat.le_of_lt_succ (log2_lt_of_lt (by decide) lt))
  have whole : ¬ (1 < 2 * 0 ∨ 2 * 0 = 1 ∧ n % 2 = 1) := by omega
  rw [roundNat, bits, Nat.pow_zero, Nat.mod_one, Nat.div_one]
  exact (if_neg whole).trans (Nat.mul_one n)

theorem toDouble_of_lt {n : Nat} (lt : n < 2 ^ 53) : toDouble n = .some n := by
  have small : n.log2 < 53 := log2_lt_of_lt (by decide) lt
  rw [toDouble, roundNat_of_lt lt]
  exact if_pos (by omega)

theorem timesDouble_of_lt {n k : Nat} (pos : 0 < k) (lt : n * k < 2 ^ 53) :
    timesDouble (toDouble n) k = .some (n * k) := by
  rw [toDouble_of_lt ((Nat.le_mul_of_pos_right n pos).trans_lt lt)]
  exact toDouble_of_lt lt

example : toDouble 9007199254740995 = .some 9007199254740996 := by decide

end Tickscope.Lib
