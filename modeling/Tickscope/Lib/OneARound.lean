import Mathlib.Order.Monotone.Basic

/-!
# One item a round

Items arrive in rounds, `arrived j` of them in the first `j` rounds, and after each round one item is
taken from the queue unless it is empty. Of the first `k` items `among k` count. Then the rounds
before the last one have taken the least of `m - 1` and all `arrived j + (m - 1 - j)`, which `InTime`
spells out; `inTime_succ_of_none` and `inTime_succ_of_some` are its recursion, by what the first round
takes.
-/

namespace Tickscope.Lib

/-- Before the last of `m` rounds at least `wanted` of the items taken count: also if the queue was
empty after round `j`. -/
def InTime (among arrived : Nat → Nat) (m wanted : Nat) : Prop :=
  0 < m ∧ wanted ≤ among (m - 1) ∧
    ∀ j, 0 < j → j < m → wanted ≤ among (arrived j + (m - 1 - j))

variable {among among' arrived arrived' : Nat → Nat} {wanted wanted' : Nat}

theorem inTime_last (none : among 0 = 0) (pos : 0 < wanted) : ¬ InTime among arrived 1 wanted :=
  fun inTime => absurd (inTime.2.1.trans_eq none) pos.not_ge

/-- Nothing has arrived after the first round. -/
theorem inTime_succ_of_none (mono : Monotone among) (none : among 0 = 0) (pos : 0 < wanted)
    (waits : arrived 1 = 0) (m : Nat) :
    InTime among arrived (m + 1) wanted ↔ InTime among (fun j => arrived (j + 1)) m wanted := by
  constructor
  · intro inTime
    have more : m ≠ 0 := fun last => inTime_last none pos (last ▸ inTime)
    obtain ⟨-, -, later⟩ := inTime
    refine ⟨Nat.pos_of_ne_zero more, ?_, fun j _ lt => ?_⟩
    · have first := later 1 Nat.one_pos (by omega)
      rwa [waits, Nat.zero_add] at first
    · have round := later (j + 1) (Nat.succ_pos j) (by omega)
      rwa [show m + 1 - 1 - (j + 1) = m - 1 - j by omega] at round
  · rintro ⟨-, first, later⟩
    refine ⟨Nat.succ_pos m, first.trans (mono (by omega)), fun j pos lt => ?_⟩
    obtain ⟨j, rfl⟩ := Nat.exists_eq_succ_of_ne_zero pos.ne'
    rw [Nat.succ_eq_add_one, show m + 1 - 1 - (j + 1) = m - 1 - j by omega]
    rcases Nat.eq_zero_or_pos j with rfl | pos
    · rwa [Nat.zero_add, waits, Nat.zero_add]
    · exact later j pos (by omega)

/-- The first round takes an item, which counts `taken`. -/
theorem inTime_succ_of_some (mono : Monotone among) (none : among 0 = 0) (pos : 0 < wanted)
    (takes : ∀ j, arrived (j + 1) = arrived' j + 1) {taken : Nat}
    (first : ∀ k, among (k + 1) = among' k + taken) (step : wanted = wanted' + taken) (m : Nat) :
    InTime among arrived (m + 1) wanted ↔ InTime among' arrived' m wanted' := by
  have bound (k : Nat) : wanted ≤ among (k + 1) ↔ wanted' ≤ among' k := by
    rw [first, step]
    exact Nat.add_le_add_iff_right
  constructor
  · intro inTime
    have more : m ≠ 0 := fun last => inTime_last none pos (last ▸ inTime)
    obtain ⟨-, all, later⟩ := inTime
    refine ⟨Nat.pos_of_ne_zero more, ?_, fun j _ lt => ?_⟩
    · rwa [← bound, show m - 1 + 1 = m + 1 - 1 by omega]
    · have round := later (j + 1) (Nat.succ_pos j) (by omega)
      rwa [takes, show arrived' j + 1 + (m + 1 - 1 - (j + 1)) = arrived' j + (m - 1 - j) + 1 by
        omega, bound] at round
  · rintro ⟨more, all, later⟩
    have all := (bound _).mpr all
    rw [show m - 1 + 1 = m + 1 - 1 by omega] at all
    refine ⟨Nat.succ_pos m, all, fun j pos lt => ?_⟩
    obtain ⟨j, rfl⟩ := Nat.exists_eq_succ_of_ne_zero pos.ne'
    rcases Nat.eq_zero_or_pos j with rfl | pos
    · exact all.trans (mono (by rw [Nat.succ_eq_add_one, takes]; omega))
    · rw [Nat.succ_eq_add_one, takes,
        show arrived' j + 1 + (m + 1 - 1 - (j + 1)) = arrived' j + (m - 1 - j) + 1 by omega, bound]
      exact later j pos (by omega)

end Tickscope.Lib
