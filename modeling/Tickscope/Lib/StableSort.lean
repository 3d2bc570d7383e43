import Mathlib.Data.List.Sort

/-!
# Stable sorting

`List.insertionSort` keeps rows with equal keys in their order, so it commutes with a filter
(`filter_insertionSort`): what a stable sort does to some of the rows does not depend on the
others. In a sorted list, the rows that satisfy a condition which only gets lost are in front
(`takeWhile_eq_filter`).
-/

namespace Tickscope.Lib

variable {α : Type*} {r : α → α → Prop} [DecidableRel r]

theorem filter_orderedInsert [IsTrans α r] {sorted : List α} (pairwise : sorted.Pairwise r)
    (p : α → Bool) (a : α) :
    (sorted.orderedInsert r a).filter p =
      if p a then (sorted.filter p).orderedInsert r a else sorted.filter p := by
  induction sorted with
  | nil =>
      rw [List.orderedInsert_nil, List.filter_singleton]
      split <;> simp_all
  | cons b sorted ih =>
      rcases List.pairwise_cons.mp pairwise with ⟨least, pairwise⟩
      rw [List.orderedInsert_cons]
      by_cases before : r a b
      · -- `a` comes before every row, so before every row that is left
        have first : ∀ c ∈ (b :: sorted).filter p, r a c := by
          intro c mem
          rcases List.mem_cons.mp (List.mem_filter.mp mem).1 with rfl | mem
          · exact before
          · exact IsTrans.trans a b c before (least c mem)
        have front : ((b :: sorted).filter p).orderedInsert r a = a :: (b :: sorted).filter p := by
          cases rest : (b :: sorted).filter p with
          | nil => rfl
          | cons c rest' =>
              rw [rest] at first
              rw [List.orderedInsert_cons, if_pos (first c List.mem_cons_self)]
        rw [if_pos before, front, List.filter_cons]
      · rw [if_neg before, List.filter_cons, ih pairwise, List.filter_cons]
        by_cases keep : p b = true
        · rw [if_pos keep, if_pos keep]
          split
          · rw [List.orderedInsert_cons, if_neg before]
          · rfl
        · rw [if_neg keep, if_neg keep]

/-- **A stable sort commutes with a filter.** -/
theorem filter_insertionSort [Std.Total r] [IsTrans α r] (rows : List α) (p : α → Bool) :
    (rows.insertionSort r).filter p = (rows.filter p).insertionSort r := by
  induction rows with
  | nil => rfl
  | cons a rows ih =>
      rw [List.insertionSort_cons, filter_orderedInsert (List.pairwise_insertionSort r rows), ih,
        List.filter_cons]
      split
      · rw [List.insertionSort_cons]
      · rfl

omit [DecidableRel r] in
/-- In a sorted list a condition that does not come back is a condition on the front. -/
theorem takeWhile_eq_filter {rows : List α} (pairwise : rows.Pairwise r) {p : α → Bool}
    (lost : ∀ a b, r a b → p b = true → p a = true) : rows.takeWhile p = rows.filter p := by
  induction rows with
  | nil => rfl
  | cons a rows ih =>
      rcases List.pairwise_cons.mp pairwise with ⟨least, pairwise⟩
      rw [List.takeWhile_cons, List.filter_cons]
      by_cases keep : p a = true
      · rw [if_pos keep, ih pairwise, keep]
        rfl
      · have none : rows.filter p = [] :=
          List.filter_eq_nil_iff.mpr fun b mem holds => keep (lost a b (least b mem) holds)
        rw [if_neg keep, none]
        split
        · rename_i holds
          exact (keep holds).elim
        · rfl

omit [DecidableRel r] in
theorem dropWhile_eq_filter {rows : List α} (pairwise : rows.Pairwise r) {p : α → Bool}
    (lost : ∀ a b, r a b → p b = true → p a = true) : rows.dropWhile p = rows.filter (!p ·) := by
  induction rows with
  | nil => rfl
  | cons a rows ih =>
      rcases List.pairwise_cons.mp pairwise with ⟨least, pairwise⟩
      rw [List.dropWhile_cons, List.filter_cons]
      cases holds : p a with
      | true => exact ih pairwise
      | false =>
          have all : rows.filter (!p ·) = rows :=
            List.filter_eq_self.mpr fun b mem => by
              cases holdsLater : p b with
              | false => rfl
              | true => exact absurd (lost a b (least b mem) holdsLater) (by rw [holds]; nofun)
          rw [all]
          rfl

end Tickscope.Lib
