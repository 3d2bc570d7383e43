import Tickscope.Lib.Str

/-!
# Lines that end in CR LF

`crlfLines` reads a text byte by byte. A reader that has only a part of the text looks for the first
CR LF in what it has (`cutCrlf`) and finds the same lines: what it cuts off is the next line, whatever
comes later (`crlfLines_append_of_cutCrlf`), also when a CR is the last byte it has.
-/

namespace Tickscope.Lib

/-- The lines of a text, with `line` read already. -/
def crlfLinesFrom (line : Str) : Str → List Str
  | 13 :: 10 :: s => line :: crlfLinesFrom [] s
  | b :: s => crlfLinesFrom (line ++ [b]) s
  | [] => []

/-- The lines of a text; what follows the last CR LF is none. -/
def crlfLines (s : Str) : List Str := crlfLinesFrom [] s

/-- `split(b"\r\n", 1)`, for a text with a CR LF in it. -/
def cutCrlf : Str → Option (Str × Str)
  | 13 :: 10 :: s => some ([], s)
  | b :: s => (cutCrlf s).map fun halves => (b :: halves.1, halves.2)
  | [] => none

theorem crlfLinesFrom_eq (line s : Str) :
    crlfLinesFrom line s =
      match cutCrlf s with
      | none => []
      | some (first, rest) => (line ++ first) :: crlfLines rest := by
  fun_induction crlfLinesFrom line s with
  | case1 line s => exact congrArg (· :: _) (List.append_nil line).symm
  | case2 line b s other ih =>
      rw [ih, cutCrlf]
      · cases cutCrlf s with
        | none => rfl
        | some halves => exact congrArg (· :: _) (List.append_assoc ..)
      · exact other
  | case3 => rfl

theorem crlfLines_of_none {s : Str} (none : cutCrlf s = none) : crlfLines s = [] := by
  rw [crlfLines, crlfLinesFrom_eq, none]

theorem crlfLines_of_some {s first rest : Str} (some : cutCrlf s = some (first, rest)) :
    crlfLines s = first :: crlfLines rest := by
  rw [crlfLines, crlfLinesFrom_eq, some]
  rfl

theorem cutCrlf_append {s first rest : Str} (some : cutCrlf s = some (first, rest)) (t : Str) :
    cutCrlf (s ++ t) = .some (first, rest ++ t) := by
  fun_induction cutCrlf s generalizing first rest with
  | case1 s =>
      cases some
      rfl
  | case2 b s other ih =>
      obtain ⟨⟨first, rest⟩, later, eq⟩ := Option.map_eq_some_iff.mp some
      cases eq
      cases s with
      | nil => cases later
      | cons c s =>
          have more := ih later
          rw [List.cons_append] at more
          rw [List.cons_append, List.cons_append, cutCrlf, more]
          · rfl
          · intro s' isCr isCrlf
            cases isCrlf
            exact other s isCr rfl
  | case3 => cases some

theorem length_cutCrlf {s first rest : Str} (some : cutCrlf s = some (first, rest)) :
    rest.length < s.length := by
  fun_induction cutCrlf s generalizing first rest with
  | case1 s =>
      cases some
      exact Nat.lt_succ_of_lt (Nat.lt_succ_self _)
  | case2 b s other ih =>
      obtain ⟨⟨first, rest⟩, later, eq⟩ := Option.map_eq_some_iff.mp some
      cases eq
      exact Nat.lt_succ_of_lt (ih later)
  | case3 => cases some

/-- The first line of what is there is the first line of the whole text. -/
theorem crlfLines_append_of_cutCrlf {s first rest : Str} (some : cutCrlf s = some (first, rest))
    (t : Str) : crlfLines (s ++ t) = first :: crlfLines (rest ++ t) :=
  crlfLines_of_some (cutCrlf_append some t)

end Tickscope.Lib
