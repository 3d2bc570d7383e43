import Mathlib.Algebra.Order.Group.Defs
import Mathlib.Order.Bounds.Basic

/-!
# Falls from a running maximum

The largest fall of a series below what it has reached before is the largest difference between
an earlier and a later element.
-/

namespace Tickscope.Lib

variable {α : Type*} [AddCommGroup α] [LinearOrder α]

/-- The maximum of the elements so far, at each position. -/
def runningMax : List α → List α
  | [] => []
  | a :: as => as.scanl max a

/-- How far each element is below the maximum so far. -/
def falls (as : List α) : List α := List.zipWith (· - ·) (runningMax as) as

/-- What lies between an earlier and a later element. -/
def Differences (as : List α) : Set α :=
  { d | ∃ (i j : Nat) (a b : α), i ≤ j ∧ as[i]? = some a ∧ as[j]? = some b ∧ a - b = d }

omit [AddCommGroup α] in
theorem getElem?_runningMax (as : List α) (j : Nat) :
    (runningMax as)[j]? = if j < as.length then (as.take (j + 1)).max? else none := by
  cases as with
  | nil => rfl
  | cons a as =>
      rw [runningMax, List.getElem?_scanl, List.take_succ_cons, List.max?_cons', List.length_cons]
      simp only [Nat.lt_succ_iff]

omit [AddCommGroup α] in
/-- The running maximum is an earlier element, and no earlier one is greater. -/
theorem runningMax_spec {as : List α} {j : Nat} {m : α} (here : (runningMax as)[j]? = some m) :
    (∃ i ≤ j, as[i]? = some m) ∧ ∀ i ≤ j, ∀ a, as[i]? = some a → a ≤ m := by
  rw [getElem?_runningMax] at here
  split at here
  · obtain ⟨mem, greatest⟩ := List.max?_eq_some_iff.mp here
    constructor
    · obtain ⟨i, lt, eq⟩ := List.mem_take_iff_getElem.mp mem
      exact ⟨i, by omega, List.getElem?_eq_some_iff.mpr ⟨by omega, eq⟩⟩
    · intro i le a at_
      refine greatest a (List.mem_iff_getElem?.mpr ⟨i, ?_⟩)
      rw [List.getElem?_take_of_lt (by omega), at_]
  · cases here

theorem falls_eq_nil_iff {as : List α} : falls as = [] ↔ as = [] := by
  cases as with
  | nil => exact iff_of_true rfl rfl
  | cons a as => simp [falls, runningMax, List.zipWith_eq_nil_iff]

/-- **The largest fall.** -/
theorem isGreatest_falls [IsOrderedAddMonoid α] {as : List α} {d : α}
    (largest : (falls as).max? = some d) : IsGreatest (Differences as) d := by
  obtain ⟨mem, greatest⟩ := List.max?_eq_some_iff.mp largest
  constructor
  · obtain ⟨j, at_⟩ := List.mem_iff_getElem?.mp mem
    obtain ⟨m, b, reached, later, rfl⟩ := List.getElem?_zipWith_eq_some.mp at_
    obtain ⟨i, le, earlier⟩ := (runningMax_spec reached).1
    exact ⟨i, j, m, b, le, earlier, later, rfl⟩
  · rintro _ ⟨i, j, a, b, le, earlier, later, rfl⟩
    have inside : j < as.length := (List.getElem?_eq_some_iff.mp later).1
    have nonempty : ((as.take (j + 1)).max?).isSome := by
      rw [List.isSome_max?_iff]
      exact List.ne_nil_of_length_pos (by rw [List.length_take]; omega)
    obtain ⟨m, reached⟩ := Option.isSome_iff_exists.mp nonempty
    have reached' : (runningMax as)[j]? = some m := by
      rw [getElem?_runningMax, if_pos inside, reached]
    have fall : m - b ≤ d := by
      refine greatest _ (List.mem_iff_getElem?.mpr ⟨j, ?_⟩)
      exact List.getElem?_zipWith_eq_some.mpr ⟨m, b, reached', later, rfl⟩
    exact (sub_le_sub_right ((runningMax_spec reached').2 i le a earlier) b).trans fall

end Tickscope.Lib
