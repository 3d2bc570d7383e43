import Mathlib.Data.List.Basic

/-!
# Regular expressions with groups

A matcher that tries the ways in which an expression matches at a place in the order in which a
backtracking engine tries them. Only a class of characters is repeated, so that a repetition never
goes on without taking a character.
-/

namespace Tickscope.Lib

inductive Regex (G : Type) where
  | empty
  | char (p : Char → Bool)
  /-- any number of characters, the longest run first, or the shortest if it is `lazy` -/
  | many (p : Char → Bool) (lazy : Bool)
  | seq (r s : Regex G)
  | alt (r s : Regex G)
  /-- `(?P<name>…)` -/
  | group (name : G) (r : Regex G)
  /-- `$` without `re.MULTILINE` -/
  | atEnd

namespace Regex

variable {G : Type}

/-- One way to match: what is taken, what the groups take of it, and what follows. -/
structure Match (G : Type) where
  taken : List Char
  groups : List (G × List Char)
  rest : List Char

def Match.group [DecidableEq G] (m : Match G) (name : G) : Option (List Char) :=
  m.groups.lookup name

/-- Each run of such characters from here on, the shortest first, with what follows. -/
def runs (p : Char → Bool) : List Char → List (List Char × List Char)
  | [] => [([], [])]
  | c :: text =>
      ([], c :: text) :: if p c then (runs p text).map fun run => (c :: run.1, run.2) else []

/-- The ways in which `r` matches at the start of the text. -/
def ways : Regex G → List Char → List (Match G)
  | empty, text => [⟨[], [], text⟩]
  | char _, [] => []
  | char p, c :: text => if p c then [⟨[c], [], text⟩] else []
  | many p lazy, text =>
      let found := (runs p text).map fun run => ⟨run.1, [], run.2⟩
      if lazy then found else found.reverse
  | seq r s, text =>
      (ways r text).flatMap fun m => (ways s m.rest).map fun n =>
        ⟨m.taken ++ n.taken, m.groups ++ n.groups, n.rest⟩
  | alt r s, text => ways r text ++ ways s text
  | group name r, text =>
      (ways r text).map fun m => { m with groups := (name, m.taken) :: m.groups }
  | atEnd, text => if text = [] ∨ text = ['\n'] then [⟨[], [], text⟩] else []

/-- `search`: the first way at the first place where there is one. -/
def search (r : Regex G) : List Char → Option (Match G)
  | [] => (ways r []).head?
  | c :: text => (ways r (c :: text)).head?.or (search r text)

/-! ## Derived forms -/

/-- `r?`. -/
def opt (r : Regex G) : Regex G := alt r empty

/-- At least one character. -/
def many1 (p : Char → Bool) (lazy : Bool) : Regex G := seq (char p) (many p lazy)

def concat (rs : List (Regex G)) : Regex G := rs.foldr seq empty

/-- The first of them that matches. -/
def any (rs : List (Regex G)) : Regex G := rs.foldr alt (char fun _ => false)

/-- Characters that are like those of the literal. -/
def literal (like : Char → Char → Bool) (text : String) : Regex G :=
  concat (text.toList.map fun c => char (like c))

end Regex

end Tickscope.Lib
