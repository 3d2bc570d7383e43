import Tickscope.Gateway.MarketDiscovery

/-!
# The loop of `filter_by_question`

`filterByQuestion` of the metadata table says which tokens the market filter selects. Here is the
function as `src/gateway/MarketDiscovery.cpp` has it: a loop over the characters of the filter that
collects a term and trims it at each comma, once more the same lines for the last term, and a loop
over the tokens. `filterLoop_eq` says that the two agree, so that what the harvester's modules prove
with the first holds of the second; `filter_by_question_spec` is the specification.
-/

namespace Tickscope.Gateway

open Tickscope.Lib

/-- `terms` and `tok` of the loop over the filter. -/
structure TermLoop where
  terms : List Str
  tok : Str

namespace TermLoop

/-- A term ends: `tok` in lower case and trimmed goes to `terms`, unless it is blank. -/
def push (loop : TermLoop) : List Str :=
  let t := toLower loop.tok
  match findFirstNotOf 32 t with
  | none => loop.terms
  | some s => loop.terms ++ [substr t s ((findLastNotOf 32 t).getD npos - s + 1)]

/-- The body of the loop. -/
def next (loop : TermLoop) (c : UInt8) : TermLoop :=
  if c = 44 then ⟨loop.push, []⟩ else { loop with tok := loop.tok ++ [c] }

end TermLoop

/-- The terms of a filter; the last one ends without a comma. -/
def termsLoop (filterCsv : Str) : List Str :=
  (filterCsv.foldl TermLoop.next ⟨[], []⟩).push

/-- `filter_by_question`. -/
def filterLoop (tokens : List TokenMeta) (filterCsv : Str) : List TokenMeta :=
  if filterCsv = [] then tokens
  else
    let terms := termsLoop filterCsv
    if terms = [] then tokens
    else
      tokens.foldl (fun out m =>
        let qLower := toLower m.question
        if terms.any (occursIn · qLower) then out ++ [m] else out) []

/-! ## Terms -/

theorem TermLoop.push_eq (terms : List Str) (tok : Str) :
    push ⟨terms, tok⟩ = terms ++ [tok].filterMap filterTerm := by
  rw [push, List.filterMap_cons, filterTerm]
  dsimp only
  cases first : findFirstNotOf 32 (toLower tok) with
  | none =>
      rw [dropWhile_of_findFirstNotOf_eq_none first, List.rdropWhile_nil, if_pos rfl]
      exact (List.append_nil terms).symm
  | some s =>
      obtain ⟨trimmed, some⟩ := substr_trim first
      rw [if_neg some, ← trimmed]
      rfl

/-- After any part of the filter, what is yet to come are the terms in the pieces of the rest, the
first of which begins with `tok`. -/
theorem TermLoop.push_foldl (rest : Str) (terms : List Str) (tok : Str) :
    (rest.foldl next ⟨terms, tok⟩).push =
      terms ++ ((rest.splitOn 44).modifyHead (tok ++ ·)).filterMap filterTerm := by
  induction rest generalizing terms tok with
  | nil => rw [List.foldl_nil, push_eq, List.splitOn_nil, List.modifyHead_cons, List.append_nil]
  | cons c rest ih =>
      obtain ⟨piece, pieces, split⟩ := List.exists_cons_of_ne_nil (List.splitOn_ne_nil 44 rest)
      rw [List.foldl_cons, List.splitOn_cons_eq_if_modifyHead, next]
      split
      case isTrue comma =>
        rw [ih, push_eq, if_pos (beq_iff_eq.mpr comma), split, List.append_assoc,
          ← List.filterMap_append, List.modifyHead_cons, List.modifyHead_cons, List.append_nil]
        rfl
      case isFalse other =>
        rw [ih, if_neg (by rwa [beq_iff_eq]), split]
        simp only [List.modifyHead_cons, List.append_assoc, List.singleton_append]

theorem termsLoop_eq (filterCsv : Str) : termsLoop filterCsv = filterTerms filterCsv := by
  obtain ⟨piece, pieces, split⟩ := List.exists_cons_of_ne_nil (List.splitOn_ne_nil 44 filterCsv)
  rw [termsLoop, TermLoop.push_foldl, filterTerms, split]
  rfl

theorem filterTerms_append_comma (f g : Str) :
    filterTerms (f ++ 44 :: g) = filterTerms f ++ filterTerms g := by
  rw [filterTerms, List.splitOn_append_cons_self, List.filterMap_append]
  rfl

/-! ## Tokens -/

/-- The two loops select what the metadata table's function selects. -/
theorem filterLoop_eq (tokens : List TokenMeta) (filterCsv : Str) :
    filterLoop tokens filterCsv = filterByQuestion tokens filterCsv := by
  rw [filterLoop, filterByQuestion, termsLoop_eq]
  dsimp only
  by_cases empty : filterCsv = []
  · rw [if_pos empty, empty, if_pos]
    decide
  · rw [if_neg empty]
    by_cases noTerm : filterTerms filterCsv = []
    · rw [if_pos noTerm, if_pos noTerm]
    · rw [if_neg noTerm, if_neg noTerm]
      rw [← List.foldl_filter, List.foldl_append_eq_append, List.nil_append, ← List.flatMap_def,
        List.flatMap_singleton']

/-- A token is selected when a term occurs in its question. -/
def Matches (filterCsv : Str) (m : TokenMeta) : Prop :=
  ∃ term ∈ filterTerms filterCsv, term <:+: toLower m.question

instance (filterCsv : Str) (m : TokenMeta) : Decidable (Matches filterCsv m) :=
  inferInstanceAs (Decidable (∃ term ∈ filterTerms filterCsv, term <:+: toLower m.question))

theorem filterByQuestion_of_terms (tokens : List TokenMeta) {filterCsv : Str}
    (terms : filterTerms filterCsv ≠ []) :
    filterByQuestion tokens filterCsv = tokens.filter (Matches filterCsv ·) := by
  rw [filterByQuestion, if_neg terms]
  refine List.filter_congr fun m _ => ?_
  rw [Bool.eq_iff_iff, List.any_eq_true, decide_eq_true_iff]
  exact exists_congr fun term => and_congr_right fun _ => occursIn_iff

theorem matches_append_comma {f g : Str} {m : TokenMeta} :
    Matches (f ++ 44 :: g) m ↔ Matches f m ∨ Matches g m := by
  simp only [Matches, filterTerms_append_comma, List.mem_append, or_and_right, exists_or]

/-- Without a term the filter selects all tokens, else those whose question has a term in it, and
two filters with terms put together select what either of them selects. -/
theorem filter_by_question_spec (tokens : List TokenMeta) :
    (∀ filterCsv, filterTerms filterCsv = [] → filterLoop tokens filterCsv = tokens) ∧
      (∀ filterCsv, filterTerms filterCsv ≠ [] →
        filterLoop tokens filterCsv = tokens.filter fun m =>
          ∃ term ∈ filterTerms filterCsv, term <:+: toLower m.question) ∧
        ∀ f g, filterTerms f ≠ [] → filterTerms g ≠ [] → ∀ m,
          m ∈ filterLoop tokens (f ++ 44 :: g) ↔
            m ∈ filterLoop tokens f ∨ m ∈ filterLoop tokens g := by
  refine ⟨fun filterCsv noTerm => ?_, fun filterCsv terms => ?_, fun f g fTerms gTerms m => ?_⟩
  · rw [filterLoop_eq, filterByQuestion]
    exact if_pos noTerm
  · rw [filterLoop_eq]
    exact filterByQuestion_of_terms tokens terms
  · have terms : filterTerms (f ++ 44 :: g) ≠ [] := by
      rw [filterTerms_append_comma]
      exact List.append_ne_nil_of_left_ne_nil fTerms _
    rw [filterLoop_eq, filterLoop_eq, filterLoop_eq, filterByQuestion_of_terms tokens terms,
      filterByQuestion_of_terms tokens fTerms, filterByQuestion_of_terms tokens gTerms,
      List.mem_filter, List.mem_filter, List.mem_filter, decide_eq_true_iff, decide_eq_true_iff,
      decide_eq_true_iff, matches_append_comma, and_or_left]

/-- Two tokens of different games. -/
def twoGames : List TokenMeta :=
  [⟨ascii "1", ascii "a", ascii "Yes", ascii "Spurs vs. Knicks", [], true, 0⟩,
    ⟨ascii "2", ascii "b", ascii "Yes", ascii "Heat vs. Bulls", [], true, 0⟩]

theorem filter_by_question_spec_twoGames :
    filterTerms (ascii " ,") = [] ∧ filterLoop twoGames (ascii " ,") = twoGames ∧
      filterTerms (ascii " SPURS") = [ascii "spurs"] ∧
        filterLoop twoGames (ascii " SPURS") = twoGames.take 1 ∧
          filterTerms (ascii "heat,") = [ascii "heat"] ∧
            ∀ m, m ∈ filterLoop twoGames (ascii " SPURS" ++ 44 :: ascii "heat,") ↔
              m ∈ filterLoop twoGames (ascii " SPURS") ∨ m ∈ filterLoop twoGames (ascii "heat,") :=
  ⟨by decide, (filter_by_question_spec twoGames).1 _ (by decide), by decide,
    ((filter_by_question_spec twoGames).2.1 _ (by decide)).trans (by decide), by decide,
    (filter_by_question_spec twoGames).2.2 _ _ (by decide) (by decide)⟩

end Tickscope.Gateway
