import Tickscope.Memory.RingDelivery

/-!
# No deadlock

A producer waits for the slot of its position and the consumer waits for the oldest position, so
the thread that can go on is found there: `produce_no_deadlock`.
-/

namespace Tickscope.Memory

open Tickscope.Lib RingBuffer

namespace System

variable {ι α : Type} {C : Capacity}

/-- The positions that `++read_index_` has passed. -/
def consumed (s : System ι α C) : Nat := s.returned.length + s.consumer.reads

/-- The producer has claimed position `q`, and it is past its spin or its check succeeds. -/
def Unblocked (s : System ι α C) (p : ι) (q : Nat) : Prop :=
  ∃ item, s.claims[q]? = some (p, item) ∧
    (s.producers p = .copy item (BitVec.ofNat 64 q) ∨
      s.producers p = .publish item (BitVec.ofNat 64 q) ∨
      s.producers p = .spin item (BitVec.ofNat 64 q) ∧
        s.ring.loadSequence (BitVec.ofNat 64 q) = BitVec.ofNat 64 q)

/-- Some thread can go on with the oldest position. -/
def CanMove (s : System ι α C) : Prop :=
  s.ring.ready = true ∨ (∃ out, s.consumer = .advance out) ∨ ∃ p, s.Unblocked p s.consumed

/-- The consumer has freed what it has consumed, and one more between its store and
`++read_index_`. -/
theorem freed_eq_consumed {s : System ι α C} (outside : ∀ out, s.consumer ≠ .advance out) :
    s.freed = s.consumed := by
  rw [freed, consumed]
  cases state : s.consumer with
  | advance out => exact (outside out state).elim
  | done out => cases out <;> rfl
  | _ => rfl

/-- The producer of a pending position at the front of the window is not blocked. -/
theorem Inv.unblocked {s : System ι α C} (inv : s.Inv) {q : Nat} (first : s.freed = q)
    (pending : s.Pending q) : ∃ p, s.Unblocked p q := by
  obtain ⟨p, item, holds, flight⟩ := pending
  have own := inv.producers p
  have same : ∀ {x : α} {r : Nat}, s.HoldsClaim p x r → x = item ∧ r = q := by
    intro x r held
    obtain rfl := held.unique holds
    have eq := held.1.symm.trans holds.1
    exact ⟨(Prod.mk.inj (Option.some.inj eq)).2, rfl⟩
  refine ⟨p, item, holds.1, ?_⟩
  cases state : s.producers p with
  | idle | claim | tryLoad | tryCheck | tryClaim | done =>
      rw [state] at flight
      cases flight
  | spin x pos =>
      rw [state] at own
      obtain ⟨r, held, rfl, -⟩ := own
      obtain ⟨rfl, rfl⟩ := same held
      refine .inr (.inr ⟨rfl, ?_⟩)
      -- nobody has published the position, and it is the first of the window
      have size := C.size_pos
      rw [loadSequence_ofNat]
      exact inv.layout.load_of_free first.le (by omega) fun pub => pub.2 ⟨p, x, holds, flight⟩
  | copy x pos =>
      rw [state] at own
      obtain ⟨r, held, rfl, -⟩ := own
      obtain ⟨rfl, rfl⟩ := same held
      exact .inl rfl
  | publish x pos =>
      rw [state] at own
      obtain ⟨r, held, rfl, -⟩ := own
      obtain ⟨rfl, rfl⟩ := same held
      exact .inr (.inl rfl)

theorem Inv.canMove {s : System ι α C} (inv : s.Inv) (unconsumed : s.consumed < s.claims.length) :
    s.CanMove := by
  by_cases between : ∃ out, s.consumer = .advance out
  · exact .inr (.inl between)
  · have freed := freed_eq_consumed fun out state => between ⟨out, state⟩
    have read : s.ring.readIndex = BitVec.ofNat 64 s.freed := by
      rw [freed]
      exact inv.read
    by_cases pending : s.Pending s.consumed
    · exact .inr (.inr (inv.unblocked freed pending))
    · refine .inl ((inv.layout.ready_iff read).mpr ?_)
      rw [freed]
      exact ⟨unconsumed, pending⟩

variable [DecidableEq ι]

/-- **`produce` cannot deadlock.** In every state that any interleaving of any number of `produce`
calls with one consumer reaches, while a claimed item is not consumed, the consumer finds its
position ready or is about to advance it, or the producer of the oldest position can go on. The
slots and the threads are as many as a 64-bit address space holds. -/
theorem produce_no_deadlock [Fintype ι] (two_le : 2 ≤ C.size)
    (few : C.size + Fintype.card ι < 2 ^ 64) (data : Fin C.size → α) (labels : List (Label ι α))
    (blocking : ∀ l ∈ labels, l.blocking = true) (s : System ι α C)
    (reached : (machine ι α C).run (.new data) labels = some s)
    (unconsumed : s.consumed < s.claims.length) : s.CanMove := by
  refine Inv.canMove ((keeps_inv two_le few).run (new_inv data) ?_ reached) unconsumed
  exact Machine.along_of_forall_mem (fun l mem _ => Label.allowed_of_blocking (blocking l mem)) _

/-- Three producers claim the two slots and one more, and the second has published: the third waits
for the consumer, the consumer for the first. -/
def fullRing : List (Label (Fin 3) Nat) :=
  [.produce 0 10, .produce 1 11, .produce 2 12, .producer 0, .producer 1, .producer 2, .producer 2,
    .producer 1, .producer 1, .producer 1, .consume, .consumer]

theorem produce_no_deadlock_full :
    ∃ s : System (Fin 3) Nat ⟨2, by decide, by decide, by decide⟩,
      (machine (Fin 3) Nat _).run (.new fun _ => 0) fullRing = some s ∧
      (s.ring.ready = false ∧ s.claims.length = 3) ∧ s.CanMove := by
  have ends : ((machine (Fin 3) Nat ⟨2, by decide, by decide, by decide⟩).run
      (.new fun _ => 0) fullRing).map
        (fun s => ((s.ring.ready, s.claims.length), s.consumed)) = some ((false, 3), 0) := rfl
  obtain ⟨s, reached, eq⟩ := Option.map_eq_some_iff.mp ends
  simp only [Prod.mk.injEq] at eq
  obtain ⟨shown, consumed⟩ := eq
  refine ⟨s, reached, shown,
    produce_no_deadlock (by decide) (by decide) _ _ (by decide) s reached ?_⟩
  rw [consumed, shown.2]
  decide

end System

end Tickscope.Memory
