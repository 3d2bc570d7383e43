import Mathlib.Data.List.DropRight
import Mathlib.Data.List.Infix
import Mathlib.Data.List.TakeWhile
import Mathlib.Tactic.IntervalCases
import Tickscope.Lib.Str

/-!
# C strings and text files

What programs do to text with `<cstdio>` and `<cstring>`: numbers to text and back, cutting at a
character, searching, and reading a file line by line into a buffer.
-/

namespace Tickscope.Lib

/-! ## `printf` and `atoi` -/

/-- `%d` of a number that is not negative. -/
def decimal (n : Nat) : Str :=
  (Nat.toDigits 10 n).map fun c => UInt8.ofNat c.toNat

/-- `%d`. -/
def signedDecimal (n : Int) : Str :=
  if n < 0 then ascii "-" ++ decimal n.natAbs else decimal n.natAbs

/-- `%0<width>d`: the sign counts towards the width. -/
def zeroPadded (width : Nat) (n : Int) : Str :=
  if n < 0 then ascii "-" ++ (decimal n.natAbs).leftpad (width - 1) 48
  else (decimal n.natAbs).leftpad width 48

/-- `isdigit`. -/
def isDigit (b : UInt8) : Bool := 48 ≤ b && b ≤ 57

/-- `isspace`. -/
def isSpace (b : UInt8) : Bool := b = 32 || (9 ≤ b && b ≤ 13)

/-- The number that the leading digits write. -/
def leadingNumber (s : Str) : Nat :=
  (s.takeWhile isDigit).foldl (fun acc b => acc * 10 + (b.toNat - 48)) 0

/-- `atoi`, for a number that an `int` holds. -/
def atoi (s : Str) : Int :=
  match s.dropWhile isSpace with
  | 45 :: s => -leadingNumber s
  | 43 :: s => leadingNumber s
  | s => leadingNumber s

theorem digit_of_lt {d : Nat} (lt : d < 10) :
    isDigit (UInt8.ofNat d.digitChar.toNat) = true ∧
      (UInt8.ofNat d.digitChar.toNat).toNat - 48 = d := by
  interval_cases d <;> decide

theorem decimal_of_lt {n : Nat} (lt : n < 10) :
    decimal n = [UInt8.ofNat n.digitChar.toNat] := by
  rw [decimal, Nat.toDigits_of_lt_base lt]
  rfl

theorem decimal_of_le {n : Nat} (le : 10 ≤ n) :
    decimal n = decimal (n / 10) ++ [UInt8.ofNat (n % 10).digitChar.toNat] := by
  rw [decimal, Nat.toDigits_of_base_le (by decide) le, List.map_append]
  rfl

theorem decimal_induction {motive : Nat → Prop} (small : ∀ n < 10, motive n)
    (step : ∀ n, 10 ≤ n → motive (n / 10) → motive n) (n : Nat) : motive n := by
  induction n using Nat.strongRecOn with
  | _ n ih =>
      rcases Nat.lt_or_ge n 10 with lt | le
      · exact small n lt
      · exact step n le (ih (n / 10) (by omega))

theorem isDigit_of_mem_decimal (n : Nat) : ∀ b ∈ decimal n, isDigit b = true := by
  induction n using decimal_induction with
  | small n lt =>
      rw [decimal_of_lt lt]
      exact List.forall_mem_singleton.mpr (digit_of_lt lt).1
  | step n le ih =>
      rw [decimal_of_le le, List.forall_mem_append, List.forall_mem_singleton]
      exact ⟨ih, (digit_of_lt (Nat.mod_lt n (by decide))).1⟩

theorem decimal_ne_nil (n : Nat) : decimal n ≠ [] := by
  rw [decimal, ne_eq, List.map_eq_nil_iff]
  exact Nat.toDigits_ne_nil

theorem leadingNumber_decimal (n : Nat) : leadingNumber (decimal n) = n := by
  unfold leadingNumber
  rw [List.takeWhile_eq_self_iff.mpr (isDigit_of_mem_decimal n)]
  induction n using decimal_induction with
  | small n lt =>
      rw [decimal_of_lt lt, List.foldl_cons, List.foldl_nil, (digit_of_lt lt).2]
      omega
  | step n le ih =>
      rw [decimal_of_le le, List.foldl_append, ih, List.foldl_cons, List.foldl_nil,
        (digit_of_lt (Nat.mod_lt n (by decide))).2]
      omega

theorem code_of_isDigit {b : UInt8} (digit : isDigit b = true) : 48 ≤ b.toNat ∧ b.toNat ≤ 57 := by
  rw [isDigit, Bool.and_eq_true, decide_eq_true_eq, decide_eq_true_eq] at digit
  exact ⟨UInt8.le_iff_toNat_le.mp digit.1, UInt8.le_iff_toNat_le.mp digit.2⟩

/-- A digit is neither a space nor a sign. -/
theorem noSpace_noSign {b : UInt8} (digit : isDigit b = true) :
    isSpace b = false ∧ b ≠ 45 ∧ b ≠ 43 := by
  have code := code_of_isDigit digit
  refine ⟨?_, ?_, ?_⟩
  · rw [isSpace, Bool.or_eq_false_iff, Bool.and_eq_false_iff]
    refine ⟨decide_eq_false fun same => ?_, .inr (decide_eq_false fun le => ?_)⟩
    · rw [same] at code
      exact absurd code.1 (by decide)
    · exact absurd (code.1.trans (UInt8.le_iff_toNat_le.mp le)) (by decide)
  · intro same
    subst same
    exact absurd code.1 (by decide)
  · intro same
    subst same
    exact absurd code.1 (by decide)

theorem le_foldl_digits (s : Str) (acc : Nat) :
    acc ≤ s.foldl (fun acc b => acc * 10 + (b.toNat - 48)) acc := by
  induction s generalizing acc with
  | nil => exact le_rfl
  | cons b s ih =>
      rw [List.foldl_cons]
      exact (by omega : acc ≤ acc * 10 + (b.toNat - 48)).trans (ih _)

/-- A digit less makes the number at least ten times as small. -/
theorem leadingNumber_append {s r : Str} (digits : ∀ b ∈ s ++ r, isDigit b = true) (more : r ≠ []) :
    10 * leadingNumber s ≤ leadingNumber (s ++ r) := by
  have own : ∀ b ∈ s, isDigit b = true := fun b mem => digits b (List.mem_append_left r mem)
  rcases List.exists_cons_of_ne_nil more with ⟨b, r, rfl⟩
  rw [leadingNumber, leadingNumber, List.takeWhile_eq_self_iff.mpr digits,
    List.takeWhile_eq_self_iff.mpr own, List.foldl_append, List.foldl_cons]
  exact (by omega : _ ≤ _ * 10 + (b.toNat - 48)).trans (le_foldl_digits r _)

theorem atoi_decimal (n : Nat) : atoi (decimal n) = n := by
  obtain ⟨b, digits, eq⟩ := List.exists_cons_of_ne_nil (decimal_ne_nil n)
  obtain ⟨noSpace, noMinus, noPlus⟩ := noSpace_noSign
    (isDigit_of_mem_decimal n b (by rw [eq]; exact List.mem_cons_self))
  have number := leadingNumber_decimal n
  rw [eq] at number ⊢
  rw [atoi, List.dropWhile_cons_of_neg (by rw [noSpace]; decide)]
  split
  · rename_i same
    cases same
    exact (noMinus rfl).elim
  · rename_i same
    cases same
    exact (noPlus rfl).elim
  · rw [number]

theorem atoi_minus (n : Nat) : atoi (ascii "-" ++ decimal n) = -n :=
  congrArg (fun m : Nat => -(m : Int)) (leadingNumber_decimal n)

/-- `atoi` reads what `%d` has written. -/
theorem atoi_signedDecimal (n : Int) : atoi (signedDecimal n) = n := by
  unfold signedDecimal
  split
  · rw [atoi_minus]
    omega
  · rw [atoi_decimal]
    omega

theorem atoi_of_digits {s : Str} (digits : ∀ b ∈ s, isDigit b = true) :
    atoi s = leadingNumber s := by
  cases s with
  | nil => rfl
  | cons b s =>
      obtain ⟨noSpace, noMinus, noPlus⟩ := noSpace_noSign (digits b List.mem_cons_self)
      rw [atoi, List.dropWhile_cons_of_neg (by rw [noSpace]; decide)]
      split
      · rename_i same
        cases same
        exact (noMinus rfl).elim
      · rename_i same
        cases same
        exact (noPlus rfl).elim
      · rfl

/-- A number that is cut off is read as another number, unless it is zero. -/
theorem atoi_cut {n : Int} {s r : Str} (cut : signedDecimal n = s ++ r) (more : r ≠ [])
    (nonzero : n ≠ 0) : atoi s ≠ n := by
  have digits := isDigit_of_mem_decimal n.natAbs
  have number := leadingNumber_decimal n.natAbs
  -- the digits are those of the absolute value, and the sign may be cut off with them
  have short : ∀ {s}, decimal n.natAbs = s ++ r →
      atoi s = leadingNumber s ∧ 10 * leadingNumber s ≤ n.natAbs := fun {s} eq => by
    rw [eq] at digits number
    exact ⟨atoi_of_digits fun b mem => digits b (List.mem_append_left r mem),
      number ▸ leadingNumber_append digits more⟩
  unfold signedDecimal at cut
  split at cut
  · rename_i negative
    cases s with
    | nil => exact nonzero.symm
    | cons b s =>
        have cut : 45 :: decimal n.natAbs = b :: (s ++ r) := cut
        obtain ⟨rfl, rest⟩ := List.cons.inj cut
        have smaller := (short rest).2
        show -(leadingNumber s : Int) ≠ n
        omega
  · rename_i positive
    rcases short cut with ⟨eq, smaller⟩
    rw [eq]
    omega

theorem length_decimal_le (n : Nat) : ∀ {k : Nat}, n < 10 ^ (k + 1) → (decimal n).length ≤ k + 1 := by
  induction n using decimal_induction with
  | small n lt =>
      intro k _
      rw [decimal_of_lt lt, List.length_singleton]
      omega
  | step n le ih =>
      intro k lt
      rw [decimal_of_le le, List.length_append, List.length_singleton]
      cases k with
      | zero => omega
      | succ k =>
          have := ih (k := k) (by rw [Nat.div_lt_iff_lt_mul (by decide), ← pow_succ]; exact lt)
          omega

/-- An `int` takes at most eleven characters. -/
theorem length_signedDecimal_le {n : Int} (int : -2 ^ 31 ≤ n ∧ n < 2 ^ 31) :
    (signedDecimal n).length ≤ 11 := by
  have digits : (decimal n.natAbs).length ≤ 10 := length_decimal_le n.natAbs (by omega)
  unfold signedDecimal
  split
  · rw [List.length_append]
    exact Nat.add_le_add (by decide : (ascii "-").length ≤ 1) digits
  · omega

theorem mem_signedDecimal {n : Int} {b : UInt8} (mem : b ∈ signedDecimal n) :
    b = 45 ∨ isDigit b = true := by
  unfold signedDecimal at mem
  split at mem
  · rcases List.mem_append.mp mem with mem | mem
    · exact .inl (List.mem_singleton.mp mem)
    · exact .inr (isDigit_of_mem_decimal _ b mem)
  · exact .inr (isDigit_of_mem_decimal _ b mem)

/-! ## Characters -/

/-- `c_str()` as `printf` reads it: up to the first NUL. -/
def cstr (s : Str) : Str := s.takeWhile (· ≠ 0)

theorem cstr_eq_self {s : Str} (noNul : 0 ∉ s) : cstr s = s :=
  List.takeWhile_eq_self_iff.mpr fun _ mem =>
    decide_eq_true fun same => noNul (same ▸ mem)

/-- `strchr`: what is before the first `c` and what is after it. -/
def cut (c : UInt8) : Str → Option (Str × Str)
  | [] => none
  | b :: s => if b = c then some ([], s) else (cut c s).map fun halves => (b :: halves.1, halves.2)

theorem cut_append {c : UInt8} {field : Str} (absent : c ∉ field) (rest : Str) :
    cut c (field ++ c :: rest) = some (field, rest) := by
  induction field with
  | nil => exact if_pos rfl
  | cons b field ih =>
      obtain ⟨ne, absent⟩ := not_or.mp fun mem => absent (List.mem_cons.mpr mem)
      rw [List.cons_append, cut, if_neg fun same => ne same.symm, ih absent]
      rfl

/-- `tolower` on every byte. -/
def toLower (s : Str) : Str := s.map fun c => if 65 ≤ c ∧ c ≤ 90 then c + 32 else c

/-- `find(term) != npos`. -/
def occursIn (term s : Str) : Bool := s.tails.any (term.isPrefixOf ·)

theorem occursIn_iff {term s : Str} : occursIn term s = true ↔ term <:+: s := by
  rw [occursIn, List.any_eq_true, List.infix_iff_prefix_suffix]
  refine exists_congr fun t => ?_
  rw [List.mem_tails, List.isPrefixOf_iff_prefix, and_comm]

/-! ## Lines -/

/-- Repeated `fgets` into a buffer of `size`: a read ends after a newline or when the buffer is
full. `line` is what the current read has, `room` what it may still take. -/
def fgetsLoop (size : Nat) (line : Str) (room : Nat) : Str → List Str
  | [] => if line = [] then [] else [line]
  | b :: s =>
      if b = 10 ∨ room ≤ 1 then (line ++ [b]) :: fgetsLoop size [] (size - 1) s
      else fgetsLoop size (line ++ [b]) (room - 1) s

/-- All reads of a file. -/
def fgetsAll (size : Nat) (text : Str) : List Str := fgetsLoop size [] (size - 1) text

theorem fgetsLoop_line {size room : Nat} {text : Str} (oneLine : 10 ∉ text)
    (fits : text.length < room) (line rest : Str) :
    fgetsLoop size line room (text ++ 10 :: rest) =
      (line ++ text ++ [10]) :: fgetsLoop size [] (size - 1) rest := by
  induction text generalizing line room with
  | nil => rw [List.nil_append, fgetsLoop, if_pos (.inl rfl), List.append_nil]
  | cons b text ih =>
      obtain ⟨ne, oneLine⟩ := not_or.mp fun mem => oneLine (List.mem_cons.mpr mem)
      rw [List.length_cons] at fits
      rw [List.cons_append, fgetsLoop, if_neg (by rintro (same | full)
                                                  · exact ne same.symm
                                                  · omega),
        ih oneLine (by omega), List.append_assoc line]
      rfl

/-- A line that fits into the buffer is one read. -/
theorem fgetsAll_line {size : Nat} {text : Str} (oneLine : 10 ∉ text)
    (fits : text.length + 1 < size) (rest : Str) :
    fgetsAll size (text ++ 10 :: rest) = (text ++ [10]) :: fgetsAll size rest :=
  fgetsLoop_line oneLine (by omega) [] rest

theorem fgetsLoop_append (size : Nat) (text rest : Str) (line : Str) (room : Nat) :
    fgetsLoop size line room (text ++ 10 :: rest) =
      fgetsLoop size line room (text ++ [10]) ++ fgetsLoop size [] (size - 1) rest := by
  induction text generalizing line room with
  | nil =>
      rw [List.nil_append, List.nil_append, fgetsLoop, fgetsLoop, if_pos (.inl rfl),
        if_pos (.inl rfl)]
      rfl
  | cons b text ih =>
      rw [List.cons_append, List.cons_append, fgetsLoop, fgetsLoop]
      split
      · rw [ih, List.cons_append]
      · exact ih ..

/-- A read ends at every newline, whatever comes after it. -/
theorem fgetsAll_append (size : Nat) (text rest : Str) :
    fgetsAll size (text ++ 10 :: rest) = fgetsAll size (text ++ [10]) ++ fgetsAll size rest :=
  fgetsLoop_append size text rest [] (size - 1)

theorem fgetsLoop_full (size : Nat) {text : Str} (oneLine : 10 ∉ text) (some : text ≠ [])
    (line rest : Str) :
    fgetsLoop size line text.length (text ++ rest) =
      (line ++ text) :: fgetsLoop size [] (size - 1) rest := by
  induction text generalizing line with
  | nil => exact (some rfl).elim
  | cons b text ih =>
      obtain ⟨ne, oneLine⟩ := not_or.mp fun mem => oneLine (List.mem_cons.mpr mem)
      rw [List.cons_append, fgetsLoop, List.length_cons]
      by_cases last : text = []
      · rw [last, if_pos (.inr le_rfl)]
        rfl
      · have room := List.length_pos_of_ne_nil last
        rw [if_neg (not_or.mpr ⟨Ne.symm ne, by omega⟩), Nat.add_sub_cancel, ih oneLine last,
          List.append_assoc]
        rfl

/-- A line that is too long is cut where the buffer ends. -/
theorem fgetsAll_full {size : Nat} {text : Str} (buffer : 2 ≤ size) (oneLine : 10 ∉ text)
    (long : size ≤ text.length + 1) (rest : Str) :
    fgetsAll size (text ++ rest) =
      text.take (size - 1) :: fgetsAll size (text.drop (size - 1) ++ rest) := by
  have length : (text.take (size - 1)).length = size - 1 := by
    rw [List.length_take]
    omega
  have some : text.take (size - 1) ≠ [] := by
    intro empty
    rw [empty, List.length_nil] at length
    omega
  have full := fgetsLoop_full size (fun mem => oneLine (List.mem_of_mem_take mem)) some []
    (text.drop (size - 1) ++ rest)
  rw [length, ← List.append_assoc, List.take_append_drop, List.nil_append] at full
  exact full

/-- Every read of a line is a piece of it, the last one perhaps with the newline. -/
theorem pieces_of_fgetsAll {size : Nat} (buffer : 2 ≤ size) {text : Str} (oneLine : 10 ∉ text)
    {read : Str} (mem : read ∈ fgetsAll size (text ++ [10])) :
    ∃ before piece after, text = before ++ piece ++ after ∧ piece.length < size ∧
      (read = piece ∨ read = piece ++ [10]) := by
  induction length : text.length using Nat.strongRecOn generalizing text with
  | _ n ih =>
      by_cases fits : text.length + 1 < size
      · rw [fgetsAll_line oneLine fits] at mem
        have whole := List.mem_singleton.mp mem
        exact ⟨[], text, [], (List.append_nil text).symm, by omega, .inr whole⟩
      · rw [fgetsAll_full buffer oneLine (by omega)] at mem
        rcases List.mem_cons.mp mem with rfl | mem
        · refine ⟨[], text.take (size - 1), text.drop (size - 1), ?_, ?_, .inl rfl⟩
          · rw [List.nil_append, List.take_append_drop]
          · rw [List.length_take]
            omega
        · have shorter : (text.drop (size - 1)).length < n := by
            rw [List.length_drop]
            omega
          rcases ih _ shorter (fun mem => oneLine (List.mem_of_mem_drop mem)) mem rfl with
            ⟨before, piece, after, eq, small, same⟩
          refine ⟨text.take (size - 1) ++ before, piece, after, ?_, small, same⟩
          rw [List.append_assoc, List.append_assoc, ← List.append_assoc before, ← eq,
            List.take_append_drop]

end Tickscope.Lib
