import Mathlib.Data.List.Sort
import Mathlib.Data.List.Perm.Subperm
import Tickscope.Lib.StableSort

/-!
# Ties

Sorting by a key leaves the order of rows with equal keys open. `EndsOf` says which rows may come
first and last: one of the least and one of the greatest, and two different rows unless there is
only one. Around a row of a sorted list, `le_of_sorted` and `ge_of_sorted` say what the keys are.
-/

namespace Tickscope.Lib

variable {α β : Type*} [LinearOrder β] {key : α → β}

def EndsOf (key : α → β) (rows : List α) (first last : α) : Prop :=
  rows = [first] ∧ last = first ∨
    [first, last].Subperm rows ∧ (∀ row ∈ rows, key first ≤ key row) ∧
      ∀ row ∈ rows, key row ≤ key last

theorem EndsOf.perm {rows rows' : List α} {first last : α} (ends : EndsOf key rows first last)
    (perm : rows.Perm rows') : EndsOf key rows' first last := by
  rcases ends with ⟨rfl, same⟩ | ⟨both, least, greatest⟩
  · exact Or.inl ⟨List.singleton_perm.mp perm |>.symm, same⟩
  · exact Or.inr ⟨both.trans perm.subperm, fun row mem => least row (perm.mem_iff.mpr mem),
      fun row mem => greatest row (perm.mem_iff.mpr mem)⟩

/-- Up to a row of a sorted list, no key is greater. -/
theorem le_of_sorted {before rest : List α} {z : α}
    (sorted : (before ++ [z] ++ rest).Pairwise fun a b => key a ≤ key b) :
    ∀ a ∈ before ++ [z], key a ≤ key z := by
  intro a mem
  rcases List.mem_append.mp mem with earlier | here
  · exact (List.pairwise_append.mp (List.pairwise_append.mp sorted).1).2.2 a earlier z
      List.mem_cons_self
  · rw [List.mem_singleton.mp here]

/-- After a row of a sorted list, no key is less. -/
theorem ge_of_sorted {before rest : List α} {z : α}
    (sorted : (before ++ [z] ++ rest).Pairwise fun a b => key a ≤ key b) :
    ∀ a ∈ rest, key z ≤ key a :=
  (List.pairwise_append.mp sorted).2.2 z (List.mem_append_right _ List.mem_cons_self)

theorem endsOf_of_sorted {rows : List α} {first last : α}
    (sorted : rows.Pairwise fun a b => key a ≤ key b) (head : rows.head? = some first)
    (tail : rows.getLast? = some last) : EndsOf key rows first last := by
  obtain ⟨rest, rfl⟩ := List.head?_eq_some_iff.mp head
  rcases List.eq_nil_or_concat rest with rfl | ⟨between, z, rfl⟩
  · exact Or.inl ⟨rfl, (Option.some.inj tail).symm⟩
  · rw [List.concat_eq_append] at sorted tail ⊢
    have same : z = last := by
      rw [← List.cons_append, List.getLast?_concat] at tail
      exact Option.some.inj tail
    subst same
    refine Or.inr ⟨?_, ?_, ?_⟩
    · exact ((List.sublist_append_right between [z]).cons_cons first).subperm
    · intro row mem
      rcases List.mem_cons.mp mem with rfl | later
      · exact le_rfl
      · exact (List.pairwise_cons.mp sorted).1 row later
    · rw [← List.cons_append, ← List.append_nil (first :: between ++ [z])] at sorted
      exact le_of_sorted sorted

/-- The rows by their key. -/
def sortBy (key : α → β) (rows : List α) : List α :=
  rows.insertionSort fun a b => key a ≤ key b

theorem sortBy_perm (key : α → β) (rows : List α) : (sortBy key rows).Perm rows :=
  List.perm_insertionSort _ rows

theorem sorted_sortBy (key : α → β) (rows : List α) :
    (sortBy key rows).Pairwise fun a b => key a ≤ key b := by
  have : Std.Total fun a b : α => key a ≤ key b := ⟨fun a b => le_total (key a) (key b)⟩
  have : IsTrans α fun a b => key a ≤ key b := ⟨fun _ _ _ => le_trans⟩
  exact List.pairwise_insertionSort _ rows

/-- Whatever may come first and last does so in some sorted order. -/
theorem exists_sorted_of_endsOf {rows : List α} {first last : α} (ends : EndsOf key rows first last) :
    ∃ sorted : List α, sorted.Perm rows ∧ (sorted.Pairwise fun a b => key a ≤ key b) ∧
      sorted.head? = some first ∧ sorted.getLast? = some last := by
  rcases ends with ⟨rfl, rfl⟩ | ⟨both, least, greatest⟩
  · exact ⟨[last], .rfl, List.pairwise_singleton _ _, rfl, rfl⟩
  · obtain ⟨ends, perm, sublist⟩ := both
    obtain ⟨rest, whole⟩ := sublist.exists_perm_append
    have whole : rows.Perm (first :: last :: rest) := whole.trans (perm.append_right rest)
    have inside : ∀ row ∈ sortBy key rest, row ∈ rows := fun row mem =>
      whole.mem_iff.mpr (List.mem_cons_of_mem _ (List.mem_cons_of_mem _
        ((sortBy_perm key rest).mem_iff.mp mem)))
    refine ⟨first :: (sortBy key rest ++ [last]), ?_, ?_, rfl, ?_⟩
    · refine (List.Perm.cons first ?_).trans whole.symm
      exact (List.perm_append_comm.trans ((sortBy_perm key rest).cons last))
    · refine List.pairwise_cons.mpr ⟨fun row mem => ?_, ?_⟩
      · rcases List.mem_append.mp mem with mem | mem
        · exact least row (inside row mem)
        · rw [List.mem_singleton.mp mem]
          exact least last (whole.mem_iff.mpr (List.mem_cons_of_mem _ List.mem_cons_self))
      · refine List.pairwise_append.mpr ⟨sorted_sortBy key rest, List.pairwise_singleton _ _, ?_⟩
        intro row mem row' mem'
        rw [List.mem_singleton.mp mem']
        exact greatest row (inside row mem)
    · rw [← List.cons_append, List.getLast?_concat]

end Tickscope.Lib
