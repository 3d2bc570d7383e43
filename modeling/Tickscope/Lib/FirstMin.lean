import Mathlib.Data.List.MinMax

/-!
# The first minimum

A loop that keeps what it holds unless an element is strictly smaller ends with the first minimum of
the elements, `List.argmin`. Here: its value on a list in order, and on a list of which the loop
sees only the end.
-/

namespace Tickscope.Lib

variable {α β : Type*} [LinearOrder β] {f : α → β}

/-- The loop goes on where it was left. -/
theorem foldl_argmin (f : α → β) (as bs : List α) :
    bs.foldl (List.argAux fun b c => f b < f c) (as.argmin f) = (as ++ bs).argmin f :=
  List.foldl_append.symm

theorem argmin_append (f : α → β) (as bs : List α) :
    (as ++ bs).argmin f =
      match as.argmin f, bs.argmin f with
      | none, right => right
      | some a, none => some a
      | some a, some b => if f b < f a then some b else some a := by
  induction bs using List.reverseRecOn with
  | nil =>
      rw [List.append_nil]
      cases as.argmin f <;> rfl
  | append_singleton bs b ih =>
      rw [← List.append_assoc, List.argmin_concat, List.argmin_concat, ih]
      cases as.argmin f with
      | none => cases bs.argmin f <;> rfl
      | some a =>
          cases bs.argmin f with
          | none => rfl
          | some c =>
              dsimp only
              rcases lt_or_ge (f b) (f c) with lt | le
              · rw [if_pos lt]
                dsimp only
                by_cases lt' : f c < f a
                · rw [if_pos lt', if_pos (lt.trans lt')]
                  exact if_pos lt
                · rw [if_neg lt']
              · rw [if_neg (not_lt.mpr le)]
                dsimp only
                by_cases lt' : f c < f a
                · rw [if_pos lt']
                  exact if_neg (not_lt.mpr le)
                · rw [if_neg lt']
                  exact if_neg (not_lt.mpr ((not_lt.mp lt').trans le))

/-- What comes first can be left out exactly if the rest has a smaller minimum, or the same. -/
theorem argmin_append_eq_right_iff (f : α → β) (as bs : List α) :
    (as ++ bs).argmin f = bs.argmin f ↔
      ∀ a ∈ as.argmin f, ∃ b ∈ bs.argmin f, f b < f a ∨ b = a := by
  rw [argmin_append]
  cases as.argmin f with
  | none => exact iff_of_true rfl nofun
  | some a =>
      cases bs.argmin f with
      | none => exact iff_of_false nofun fun all => nomatch (all a rfl).choose_spec.1
      | some b =>
          dsimp only
          constructor
          · rintro same _ ⟨⟩
            refine ⟨b, rfl, ?_⟩
            by_cases lt : f b < f a
            · exact .inl lt
            · rw [if_neg lt] at same
              exact .inr (Option.some.inj same).symm
          · intro all
            obtain ⟨_, ⟨⟩, lt | rfl⟩ := all a rfl
            · rw [if_pos lt]
            · rw [ite_self]

/-- In a list in order, the first minimum comes first. -/
theorem argmin_of_sorted {as : List α} (sorted : as.Pairwise fun a b => f a ≤ f b) :
    as.argmin f = as.head? := by
  induction as using List.reverseRecOn with
  | nil => rfl
  | append_singleton as a ih =>
      obtain ⟨sorted, -, before⟩ := List.pairwise_append.mp sorted
      rw [List.argmin_concat, ih sorted]
      cases as with
      | nil => rfl
      | cons first as =>
          exact if_neg (not_lt.mpr (before first List.mem_cons_self a List.mem_cons_self))

end Tickscope.Lib
