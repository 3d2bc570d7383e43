import Mathlib.Data.List.DropRight
import Mathlib.Data.List.TakeWhile

/-!
# Byte strings

`std::string` is a list of bytes; `ascii` writes a literal of the source.
-/

namespace Tickscope.Lib

abbrev Str := List UInt8

instance : LawfulBEq Str := List.instLawfulBEq

/-- The bytes of a literal whose characters are all ASCII. -/
def ascii (literal : String) : Str :=
  literal.toList.map fun c => UInt8.ofNat c.toNat

/-! ## `std::string` -/

/-- `rfind` of one character: the position of its last occurrence. -/
def rfind (c : UInt8) : Str → Option Nat
  | [] => none
  | b :: s =>
      match rfind c s with
      | some i => some (i + 1)
      | none => if b = c then some 0 else none

/-- `find_first_not_of` one character. -/
def findFirstNotOf (c : UInt8) : Str → Option Nat
  | [] => none
  | b :: s => if b ≠ c then some 0 else (findFirstNotOf c s).map (· + 1)

/-- `find_last_not_of` one character. -/
def findLastNotOf (c : UInt8) : Str → Option Nat
  | [] => none
  | b :: s =>
      match findLastNotOf c s with
      | some i => some (i + 1)
      | none => if b ≠ c then some 0 else none

/-- `std::string::npos`. -/
def npos : Nat := 18446744073709551615

/-- `substr`. -/
def substr (s : Str) (pos count : Nat) : Str := (s.drop pos).take count

theorem rfind_eq_none {c : UInt8} {s : Str} (absent : c ∉ s) : rfind c s = none := by
  induction s with
  | nil => rfl
  | cons b s ih =>
      obtain ⟨ne, absent⟩ := not_or.mp fun mem => absent (List.mem_cons.mpr mem)
      rw [rfind, ih absent]
      exact if_neg fun same => ne same.symm

theorem rfind_append_cons {c : UInt8} {after : Str} (absent : c ∉ after) (before : Str) :
    rfind c (before ++ c :: after) = some before.length := by
  induction before with
  | nil =>
      rw [List.nil_append, rfind, rfind_eq_none absent]
      exact if_pos rfl
  | cons b before ih =>
      rw [List.cons_append, rfind, ih]
      rfl

theorem findFirstNotOf_eq_none {c : UInt8} {s : Str} (none : findFirstNotOf c s = none) :
    ∀ b ∈ s, b = c := by
  induction s with
  | nil => exact List.forall_mem_nil _
  | cons b s ih =>
      rw [findFirstNotOf] at none
      split at none
      case isTrue => cases none
      case isFalse same =>
        exact List.forall_mem_cons.mpr ⟨not_not.mp same, ih (Option.map_eq_none_iff.mp none)⟩

theorem findFirstNotOf_eq_some {c : UInt8} {s : Str} {i : Nat}
    (found : findFirstNotOf c s = some i) :
    ∃ before b after, s = before ++ b :: after ∧ before.length = i ∧ b ≠ c ∧
      ∀ x ∈ before, x = c := by
  induction s generalizing i with
  | nil => cases found
  | cons b s ih =>
      rw [findFirstNotOf] at found
      split at found
      case isTrue other =>
        cases found
        exact ⟨[], b, s, rfl, rfl, other, List.forall_mem_nil _⟩
      case isFalse same =>
        obtain ⟨i, later, rfl⟩ := Option.map_eq_some_iff.mp found
        obtain ⟨before, b', after, rfl, rfl, other, blank⟩ := ih later
        exact ⟨b :: before, b', after, rfl, rfl, other,
          List.forall_mem_cons.mpr ⟨not_not.mp same, blank⟩⟩

theorem findLastNotOf_append_cons {c b : UInt8} {after : Str} (other : b ≠ c)
    (blank : ∀ x ∈ after, x = c) (before : Str) :
    findLastNotOf c (before ++ b :: after) = some before.length := by
  have rest : findLastNotOf c after = none := by
    induction after with
    | nil => rfl
    | cons x after ih =>
        obtain ⟨same, blank⟩ := List.forall_mem_cons.mp blank
        rw [findLastNotOf, ih blank]
        exact if_neg (not_not.mpr same)
  induction before with
  | nil =>
      rw [List.nil_append, findLastNotOf, rest]
      exact if_pos other
  | cons x before ih =>
      rw [List.cons_append, findLastNotOf, ih]
      rfl

/-- A string with another character than `c` in it, cut behind the last one. -/
theorem exists_rdropWhile_eq {c : UInt8} {s : Str} {b : UInt8} (mem : b ∈ s) (other : b ≠ c) :
    ∃ init last blank, s = init ++ last :: blank ∧ last ≠ c ∧ (∀ x ∈ blank, x = c) ∧
      s.rdropWhile (· = c) = init ++ [last] := by
  induction s using List.reverseRecOn with
  | nil => cases mem
  | append_singleton s x ih =>
      by_cases same : x = c
      · have before : b ∈ s := (List.mem_append.mp mem).resolve_right fun last =>
          other ((List.mem_singleton.mp last).trans same)
        obtain ⟨init, last, blank, rfl, lastNot, allBlank, trimmed⟩ := ih before
        refine ⟨init, last, blank ++ [x], List.append_assoc .., lastNot, ?_, ?_⟩
        · exact List.forall_mem_append.mpr ⟨allBlank, List.forall_mem_singleton.mpr same⟩
        · rw [List.rdropWhile_concat, if_pos (decide_eq_true same), trimmed]
      · exact ⟨s, x, [], rfl, same, List.forall_mem_nil _,
          List.rdropWhile_concat_neg _ _ _ (by rwa [decide_eq_true_iff])⟩

/-- Trimming with `find_first_not_of`, `find_last_not_of` and `substr`; the last position is not
`npos` when the first one is not. -/
theorem substr_trim {c : UInt8} {s : Str} {i : Nat} (found : findFirstNotOf c s = some i) :
    substr s i ((findLastNotOf c s).getD npos - i + 1) =
        (s.dropWhile (· = c)).rdropWhile (· = c) ∧
      (s.dropWhile (· = c)).rdropWhile (· = c) ≠ [] := by
  obtain ⟨before, b, after, rfl, rfl, other, blank⟩ := findFirstNotOf_eq_some found
  have start : (before ++ b :: after).dropWhile (· = c) = b :: after := by
    rw [List.dropWhile_append_of_pos fun x mem => decide_eq_true (blank x mem),
      List.dropWhile_cons_of_neg (by rwa [decide_eq_true_iff])]
  obtain ⟨init, last, rest, split, lastNot, restBlank, trimmed⟩ :=
    exists_rdropWhile_eq (s := b :: after) List.mem_cons_self other
  have position : findLastNotOf c (before ++ b :: after) = some (before ++ init).length := by
    rw [split, ← List.append_assoc]
    exact findLastNotOf_append_cons lastNot restBlank _
  have count : (before ++ init).length - before.length + 1 = (init ++ [last]).length := by
    rw [List.length_append, Nat.add_sub_cancel_left, List.length_append, List.length_singleton]
  rw [start, trimmed, position, Option.getD_some, substr, List.drop_left, count, split,
    List.append_cons init last rest]
  exact ⟨List.take_left, List.concat_ne_nil _ _⟩

theorem dropWhile_of_findFirstNotOf_eq_none {c : UInt8} {s : Str}
    (none : findFirstNotOf c s = none) : s.dropWhile (· = c) = [] :=
  List.dropWhile_eq_nil_iff.mpr fun b mem => decide_eq_true (findFirstNotOf_eq_none none b mem)

end Tickscope.Lib
