import Mathlib.Data.Finset.Card
import Mathlib.Data.Finset.Insert

/-!
# Ranks of first appearance

`firstSeen ks` lists the distinct elements of `ks` in the order of their first
appearance, and `rank k ks` counts the distinct elements that appear before `k`
does. A table that numbers keys as they come in numbers them by `rank`
(`idxOf_firstSeen`); a key that has not appeared has the number of all distinct
elements as its rank, which is the number it would get next.
-/

namespace Tickscope.Lib

variable {α : Type*} [DecidableEq α]

/-- The distinct elements in the order of their first appearance. -/
def firstSeen (ks : List α) : List α :=
  ks.foldl (fun seen k => if k ∈ seen then seen else seen ++ [k]) []

/-- The number of distinct elements before the first `k`, or of all without a `k`. -/
def rank (k : α) (ks : List α) : Nat :=
  (ks.takeWhile (· ≠ k)).toFinset.card

theorem firstSeen_concat (ks : List α) (k : α) :
    firstSeen (ks ++ [k]) = if k ∈ firstSeen ks then firstSeen ks else firstSeen ks ++ [k] :=
  List.foldl_concat ..

/-- The rank looks at what comes before the first appearance. -/
theorem takeWhile_append_of_mem {k : α} {ks : List α} (mem : k ∈ ks) (later : List α) :
    (ks ++ later).takeWhile (· ≠ k) = ks.takeWhile (· ≠ k) := by
  induction ks with
  | nil => cases mem
  | cons a ks ih =>
      rw [List.cons_append, List.takeWhile_cons, List.takeWhile_cons]
      by_cases same : a = k
      · simp [same]
      · rw [ih ((List.mem_cons.mp mem).resolve_left (Ne.symm same))]

theorem takeWhile_append_of_not_mem {k : α} {ks : List α} (absent : k ∉ ks) (later : List α) :
    (ks ++ later).takeWhile (· ≠ k) = ks ++ later.takeWhile (· ≠ k) :=
  List.takeWhile_append_of_pos fun _ mem => decide_eq_true fun same => absent (same ▸ mem)

theorem rank_append_of_mem {k : α} {ks : List α} (mem : k ∈ ks) (later : List α) :
    rank k (ks ++ later) = rank k ks := by
  rw [rank, takeWhile_append_of_mem mem]
  rfl

theorem rank_of_not_mem {k : α} {ks : List α} (absent : k ∉ ks) :
    rank k ks = ks.toFinset.card := by
  have whole := takeWhile_append_of_not_mem absent []
  rw [List.append_nil, List.takeWhile_nil, List.append_nil] at whole
  rw [rank, whole]

/-- Another element at the end changes neither whether an element has appeared nor its rank. -/
theorem ranked_concat_iff {k a : α} (ne : k ≠ a) (ks : List α) (P : Nat → Prop) :
    (k ∈ ks ++ [a] ∧ P (rank k (ks ++ [a]))) ↔ (k ∈ ks ∧ P (rank k ks)) := by
  rw [List.mem_append, List.mem_singleton, or_iff_left ne]
  exact and_congr_right fun mem => by rw [rank_append_of_mem mem]

/-- A rank only moves before its element appears. -/
theorem rank_le_rank_append (k : α) (ks later : List α) : rank k ks ≤ rank k (ks ++ later) := by
  by_cases mem : k ∈ ks
  · rw [rank_append_of_mem mem]
  · rw [rank_of_not_mem mem, rank, takeWhile_append_of_not_mem mem, List.toFinset_append]
    exact Finset.card_le_card Finset.subset_union_left

/-! ## The list of first appearances -/

@[simp] theorem mem_firstSeen {k : α} {ks : List α} : k ∈ firstSeen ks ↔ k ∈ ks := by
  induction ks using List.reverseRecOn with
  | nil => exact Iff.rfl
  | append_singleton ks a ih =>
      rw [firstSeen_concat, List.mem_append, List.mem_singleton, ← ih]
      split
      · rename_i seen
        exact ⟨.inl, fun mem => mem.elim id fun same => same ▸ seen⟩
      · rw [List.mem_append, List.mem_singleton]

theorem nodup_firstSeen (ks : List α) : (firstSeen ks).Nodup := by
  induction ks using List.reverseRecOn with
  | nil => exact List.nodup_nil
  | append_singleton ks a ih =>
      rw [firstSeen_concat]
      split
      · exact ih
      · rename_i unseen
        exact List.concat_eq_append ▸ ih.concat unseen

theorem length_firstSeen (ks : List α) : (firstSeen ks).length = ks.toFinset.card := by
  rw [← List.toFinset_card_of_nodup (nodup_firstSeen ks)]
  congr 1
  ext k
  rw [List.mem_toFinset, List.mem_toFinset, mem_firstSeen]

/-- **The position in the list of first appearances is the rank.** -/
theorem idxOf_firstSeen (k : α) (ks : List α) : (firstSeen ks).idxOf k = rank k ks := by
  induction ks using List.reverseRecOn with
  | nil => rfl
  | append_singleton ks a ih =>
      by_cases mem : k ∈ ks
      · rw [rank_append_of_mem mem, ← ih, firstSeen_concat]
        split
        · rfl
        · rw [List.idxOf_append_of_mem (mem_firstSeen.mpr mem)]
      · have absent : k ∉ firstSeen ks := fun seen => mem (mem_firstSeen.mp seen)
        by_cases same : a = k
        · subst same
          rw [rank, takeWhile_append_of_not_mem mem, firstSeen_concat, if_neg absent,
            List.idxOf_append_of_notMem absent, length_firstSeen]
          simp
        · have still : k ∉ ks ++ [a] := by
            rw [List.mem_append, List.mem_singleton]
            exact fun seen => seen.elim mem (Ne.symm same)
          rw [rank_of_not_mem still, ← length_firstSeen]
          exact List.idxOf_of_notMem fun seen => still (mem_firstSeen.mp seen)

/-- What comes later adds the elements that have not appeared. -/
theorem firstSeen_append (ks js : List α) :
    firstSeen (ks ++ js) = firstSeen ks ++ (firstSeen js).filter (· ∉ ks) := by
  induction js using List.reverseRecOn with
  | nil => exact (congrArg firstSeen (List.append_nil ks)).trans (List.append_nil _).symm
  | append_singleton js a ih =>
      rw [← List.append_assoc, firstSeen_concat, firstSeen_concat, ih]
      have seen : a ∈ firstSeen ks ++ (firstSeen js).filter (· ∉ ks) ↔ a ∈ ks ∨ a ∈ js := by
        rw [← ih, mem_firstSeen, List.mem_append]
      by_cases later : a ∈ firstSeen js
      · rw [if_pos later, if_pos (seen.mpr (.inr (mem_firstSeen.mp later)))]
      · rw [if_neg later, List.filter_append, List.filter_singleton]
        by_cases before : a ∈ ks
        · rw [if_pos (seen.mpr (.inl before))]
          simp [before]
        · rw [if_neg fun mem => (seen.mp mem).elim before fun mem => later (mem_firstSeen.mpr mem)]
          simp [before]

theorem firstSeen_cons (k : α) (ks : List α) :
    firstSeen (k :: ks) = k :: (firstSeen ks).filter (· ≠ k) := by
  rw [← List.singleton_append, firstSeen_append]
  simp [firstSeen]

/-- An element that has appeared before moves no rank. -/
theorem rank_concat_of_mem {a : α} {ks : List α} (mem : a ∈ ks) (k : α) :
    rank k (ks ++ [a]) = rank k ks := by
  rw [← idxOf_firstSeen, ← idxOf_firstSeen, firstSeen_concat, if_pos (mem_firstSeen.mpr mem)]

theorem card_concat_of_not_mem {a : α} {ks : List α} (absent : a ∉ ks) :
    (ks ++ [a]).toFinset.card = ks.toFinset.card + 1 := by
  rw [← length_firstSeen, ← length_firstSeen, firstSeen_concat,
    if_neg fun seen => absent (mem_firstSeen.mp seen), List.length_append, List.length_singleton]

theorem rank_inj {j k : α} {ks : List α} (mem : j ∈ ks) (same : rank j ks = rank k ks) :
    j = k := by
  rw [← idxOf_firstSeen, ← idxOf_firstSeen] at same
  exact (List.idxOf_inj (mem_firstSeen.mpr mem)).mp same

theorem rank_lt_card {k : α} {ks : List α} (mem : k ∈ ks) : rank k ks < ks.toFinset.card := by
  rw [← idxOf_firstSeen, ← length_firstSeen]
  exact List.idxOf_lt_length_of_mem (mem_firstSeen.mpr mem)

theorem rank_le_card (k : α) (ks : List α) : rank k ks ≤ ks.toFinset.card := by
  by_cases mem : k ∈ ks
  · exact (rank_lt_card mem).le
  · exact (rank_of_not_mem mem).le

end Tickscope.Lib
