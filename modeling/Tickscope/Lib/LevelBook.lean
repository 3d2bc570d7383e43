import Mathlib.Data.List.Basic
import Mathlib.Order.Bounds.Basic

/-!
# One side of an order book

A side gives every price the size that rests there. A change puts the size of one price
(`levelsOf`), and the prices with a positive size are active. The best price is the highest
active one on the bid side and the lowest on the ask side; the top of a side is its best price
with the size there, and zeros when nothing rests (`IsTop`).
-/

namespace Tickscope.Lib

variable {P S : Type*}

/-- The resting sizes after some changes of single prices. -/
def levelsOf [DecidableEq P] [Zero S] (changes : List (P × S)) : P → S :=
  changes.foldl (fun levels change => Function.update levels change.1 change.2) fun _ => 0

theorem levelsOf_concat [DecidableEq P] [Zero S] (changes : List (P × S)) (price : P) (size : S) :
    levelsOf (changes ++ [(price, size)]) = Function.update (levelsOf changes) price size :=
  List.foldl_concat ..

/-- The prices where something rests. -/
def active [Zero S] [LT S] (levels : P → S) : Set P := {price | 0 < levels price}

section Best

variable [PartialOrder P]

/-- The best price of a side. -/
def IsBest (bid : Bool) (prices : Set P) (price : P) : Prop :=
  if bid then IsGreatest prices price else IsLeast prices price

variable {bid : Bool} {prices : Set P} {p q : P}

theorem IsBest.mem (best : IsBest bid prices p) : p ∈ prices := by
  cases bid with
  | true => exact And.left (b := p ∈ upperBounds prices) best
  | false => exact And.left (b := p ∈ lowerBounds prices) best

theorem IsBest.unique (best : IsBest bid prices p) (best' : IsBest bid prices q) : p = q := by
  cases bid with
  | true => exact IsGreatest.unique best best'
  | false => exact IsLeast.unique best best'

variable [Zero P] [Zero S] [Preorder S] {levels : P → S} {size : S}

/-- The top of a side. -/
def IsTop (bid : Bool) (levels : P → S) (price : P) (size : S) : Prop :=
  IsBest bid (active levels) price ∧ size = levels price ∨
    active levels = ∅ ∧ price = 0 ∧ size = 0

theorem isTop_empty (bid : Bool) : IsTop bid (fun _ : P => (0 : S)) 0 0 :=
  .inr ⟨Set.eq_empty_of_forall_notMem fun _ mem => lt_irrefl 0 mem, rfl, rfl⟩

/-- The price that was changed last is the top exactly if it has a size and is the best price. -/
theorem isTop_iff (here : levels p = size) (known : p ≠ 0)
    (best : (active levels).Nonempty → IsBest bid (active levels) q) :
    IsTop bid levels p size ↔ 0 < size ∧ p = q := by
  constructor
  · rintro (⟨top, -⟩ | ⟨-, zero, -⟩)
    · have rests : 0 < levels p := top.mem
      exact ⟨here ▸ rests, top.unique (best ⟨p, rests⟩)⟩
    · exact (known zero).elim
  · intro both
    rcases both with ⟨rests, rfl⟩
    exact .inl ⟨best ⟨p, by rw [← here] at rests; exact rests⟩, here.symm⟩

end Best

end Tickscope.Lib
