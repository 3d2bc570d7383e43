import Mathlib.Algebra.Order.Group.Nat
import Mathlib.Algebra.Order.Ring.Nat
import Tickscope.Lib.Stdio

/-!
# Numbers of a fixed width

Texts of digits that are as long as each other are ordered like the numbers they write, and texts
that begin with fields of the same length are ordered by these fields first. So a text of fields
that `%0<width>d` writes is ordered like its numbers, as long as they fit.
-/

namespace Tickscope.Lib

/-! ## Fields -/

/-- The first fields decide, unless they are equal. -/
theorem append_lt_append_iff {s t : Str} (len : s.length = t.length) (s' t' : Str) :
    s ++ s' < t ++ t' ↔ s < t ∨ s = t ∧ s' < t' := by
  induction s generalizing t with
  | nil =>
      rw [List.length_nil, eq_comm, List.length_eq_zero_iff] at len
      subst len
      simp
  | cons b s ih =>
      cases t with
      | nil => cases len
      | cons c t =>
          have len : s.length = t.length := Nat.succ.inj len
          rw [List.cons_append, List.cons_append, List.cons_lt_cons_iff, List.cons_lt_cons_iff,
            ih len, List.cons.injEq]
          tauto

theorem append_lt_append_left_iff (s s' t' : Str) : s ++ s' < s ++ t' ↔ s' < t' := by
  rw [append_lt_append_iff rfl]
  exact ⟨fun lt => lt.elim (fun lt => absurd lt (List.lt_irrefl s)) And.right, fun lt => .inr ⟨rfl, lt⟩⟩

/-- A cut text keeps its place. -/
theorem take_le_take (n : Nat) {s t : Str} (le : s ≤ t) : s.take n ≤ t.take n := by
  induction n generalizing s t with
  | zero => exact List.le_refl _
  | succ n ih =>
      cases s with
      | nil => exact List.nil_le _
      | cons a s =>
          cases t with
          | nil => exact absurd le (List.not_le.mpr (List.nil_lt_cons a s))
          | cons b t =>
              rw [List.take_succ_cons, List.take_succ_cons]
              rcases List.cons_le_cons_iff.mp le with lt | ⟨rfl, rest⟩
              · exact List.cons_le_cons_iff.mpr (.inl lt)
              · exact List.cons_le_cons_iff.mpr (.inr ⟨rfl, ih rest⟩)

/-! ## Digits -/

def Digits (s : Str) : Prop := ∀ b ∈ s, isDigit b = true

theorem foldl_digits (s : Str) (acc : Nat) :
    s.foldl (fun acc b => acc * 10 + (b.toNat - 48)) acc =
      acc * 10 ^ s.length + s.foldl (fun acc b => acc * 10 + (b.toNat - 48)) 0 := by
  induction s generalizing acc with
  | nil => rw [List.foldl_nil, List.foldl_nil, List.length_nil, pow_zero, Nat.mul_one, Nat.add_zero]
  | cons b s ih =>
      rw [List.foldl_cons, List.foldl_cons, ih, ih (0 * 10 + (b.toNat - 48)), List.length_cons,
        pow_succ, Nat.add_mul, Nat.zero_mul, Nat.zero_add, Nat.mul_assoc, Nat.mul_comm 10,
        Nat.add_assoc]

theorem leadingNumber_eq_foldl {s : Str} (digits : Digits s) :
    leadingNumber s = s.foldl (fun acc b => acc * 10 + (b.toNat - 48)) 0 := by
  rw [leadingNumber, List.takeWhile_eq_self_iff.mpr digits]

theorem leadingNumber_cons {b : UInt8} {s : Str} (digits : Digits (b :: s)) :
    leadingNumber (b :: s) = (b.toNat - 48) * 10 ^ s.length + leadingNumber s := by
  rw [leadingNumber_eq_foldl digits, leadingNumber_eq_foldl (List.forall_mem_cons.mp digits).2,
    List.foldl_cons, foldl_digits, Nat.zero_mul, Nat.zero_add]

theorem leadingNumber_lt {s : Str} (digits : Digits s) : leadingNumber s < 10 ^ s.length := by
  induction s with
  | nil => decide
  | cons b s ih =>
      have rest := ih (List.forall_mem_cons.mp digits).2
      have code := code_of_isDigit (List.forall_mem_cons.mp digits).1
      have first := Nat.mul_le_mul_right (10 ^ s.length) (show b.toNat - 48 ≤ 9 by omega)
      rw [leadingNumber_cons digits, List.length_cons, pow_succ]
      omega

/-- Numbers with a leading digit compare by it first. -/
theorem leading_lt_iff {x y p m n : Nat} (hm : m < p) (hn : n < p) :
    x * p + m < y * p + n ↔ x < y ∨ x = y ∧ m < n := by
  rcases Nat.lt_trichotomy x y with lt | rfl | gt
  · have := Nat.mul_le_mul_right p (show x + 1 ≤ y from lt)
    rw [Nat.succ_mul] at this
    exact iff_of_true (by omega) (.inl lt)
  · omega
  · have := Nat.mul_le_mul_right p (show y + 1 ≤ x from gt)
    rw [Nat.succ_mul] at this
    exact iff_of_false (by omega) (by omega)

/-- Digits of the same length are ordered like the numbers they write. -/
theorem digits_lt_iff {s t : Str} (hs : Digits s) (ht : Digits t) (len : s.length = t.length) :
    s < t ↔ leadingNumber s < leadingNumber t := by
  induction s generalizing t with
  | nil =>
      rw [List.length_nil, eq_comm, List.length_eq_zero_iff] at len
      subst len
      exact iff_of_false (List.lt_irrefl []) (Nat.lt_irrefl _)
  | cons b s ih =>
      cases t with
      | nil => cases len
      | cons c t =>
          have len : s.length = t.length := Nat.succ.inj len
          obtain ⟨digit, digits⟩ := List.forall_mem_cons.mp hs
          obtain ⟨digit', digits'⟩ := List.forall_mem_cons.mp ht
          have code := code_of_isDigit digit
          have code' := code_of_isDigit digit'
          have fits := leadingNumber_lt digits
          rw [len] at fits
          rw [List.cons_lt_cons_iff, leadingNumber_cons hs, leadingNumber_cons ht, len,
            leading_lt_iff fits (leadingNumber_lt digits'), ih digits digits' len,
            UInt8.lt_iff_toNat_lt, ← UInt8.toNat_inj]
          omega

/-! ## `%0<width>d` -/

/-- A number fits into a width. -/
structure Fits (width : Nat) (n : Int) : Prop where
  nonneg : 0 ≤ n
  lt : n < 10 ^ width

theorem digits_zeroPadded {width : Nat} {n : Int} (fits : Fits width n) :
    Digits (zeroPadded width n) := by
  rw [zeroPadded, if_neg fits.nonneg.not_gt, List.leftpad]
  refine List.forall_mem_append.mpr ⟨fun b mem => ?_, isDigit_of_mem_decimal _⟩
  rw [List.eq_of_mem_replicate mem]
  rfl

theorem length_zeroPadded {width : Nat} {n : Int} (fits : Fits (width + 1) n) :
    (zeroPadded (width + 1) n).length = width + 1 := by
  obtain ⟨n, rfl⟩ := Int.eq_ofNat_of_zero_le fits.nonneg
  have lt : n < 10 ^ (width + 1) := by exact_mod_cast fits.lt
  rw [zeroPadded, if_neg fits.nonneg.not_gt, List.length_leftpad]
  exact max_eq_left (length_decimal_le n lt)

theorem leadingNumber_zeros (k : Nat) {s : Str} (digits : Digits s) :
    leadingNumber (List.replicate k 48 ++ s) = leadingNumber s := by
  induction k with
  | zero => rfl
  | succ k ih =>
      have all : Digits (48 :: (List.replicate k 48 ++ s)) := by
        refine List.forall_mem_cons.mpr ⟨rfl, List.forall_mem_append.mpr ⟨fun b mem => ?_, digits⟩⟩
        rw [List.eq_of_mem_replicate mem]
        rfl
      rw [List.replicate_succ, List.cons_append, leadingNumber_cons all, ih]
      exact (congrArg (· + _) (Nat.zero_mul _)).trans (Nat.zero_add _)

theorem leadingNumber_zeroPadded {width : Nat} {n : Int} (fits : Fits width n) :
    leadingNumber (zeroPadded width n) = n := by
  rw [zeroPadded, if_neg fits.nonneg.not_gt, List.leftpad,
    leadingNumber_zeros _ (isDigit_of_mem_decimal _), leadingNumber_decimal,
    Int.natAbs_of_nonneg fits.nonneg]

theorem zeroPadded_lt_iff {width : Nat} {m n : Int} (hm : Fits (width + 1) m)
    (hn : Fits (width + 1) n) :
    zeroPadded (width + 1) m < zeroPadded (width + 1) n ↔ m < n := by
  rw [digits_lt_iff (digits_zeroPadded hm) (digits_zeroPadded hn)
    ((length_zeroPadded hm).trans (length_zeroPadded hn).symm), ← Int.ofNat_lt,
    leadingNumber_zeroPadded hm, leadingNumber_zeroPadded hn]

theorem zeroPadded_inj {width : Nat} {m n : Int} (hm : Fits width m) (hn : Fits width n) :
    zeroPadded width m = zeroPadded width n ↔ m = n :=
  ⟨fun same => by rw [← leadingNumber_zeroPadded hm, same, leadingNumber_zeroPadded hn],
    fun same => by rw [same]⟩

/-- A number of a fixed width, and what follows it. -/
def readField (width : Nat) (s : Str) : Int × Str := (leadingNumber (s.take width), s.drop width)

theorem readField_zeroPadded {width : Nat} {n : Int} (fits : Fits (width + 1) n) (s : Str) :
    readField (width + 1) (zeroPadded (width + 1) n ++ s) = (n, s) := by
  rw [readField, List.take_left' (length_zeroPadded fits), List.drop_left' (length_zeroPadded fits),
    leadingNumber_zeroPadded fits]

end Tickscope.Lib
