import Tickscope.Memory.RingInvariant

/-!
# Delivery by many producers

`produce` called by any number of threads, `consume` by one. `Delivery` is what an
observer of the logs may rely on in every state of every interleaving:
`consume` returns the claimed payloads in the order of their positions, a
published payload stays in its slot until the consumer has copied it, and the
items of one producer keep the order of its calls.

`produce_delivery` assembles it from `System.Inv` and from `CallsInv`, which ties
the calls made to the positions claimed.
-/

namespace Tickscope.Memory

open Tickscope.Lib RingBuffer

/-- The step is not a call of `try_produce`. -/
def Label.blocking {ι α : Type} : Label ι α → Bool
  | .tryProduce .. => false
  | _ => true

theorem Label.allowed_of_blocking {ι α : Type} {l : Label ι α} (blocking : l.blocking = true) :
    l.Allowed := by
  cases l with
  | tryProduce => cases blocking
  | _ => exact True.intro

/-- The items that `p` has in a log of pairs, in the order of the log. -/
def itemsOf {ι α : Type} [DecidableEq ι] (p : ι) (log : List (ι × α)) : List α :=
  (log.filter fun c => c.1 = p).map Prod.snd

theorem itemsOf_append {ι α : Type} [DecidableEq ι] (p : ι) (log log' : List (ι × α)) :
    itemsOf p (log ++ log') = itemsOf p log ++ itemsOf p log' := by
  rw [itemsOf, List.filter_append, List.map_append]
  rfl

theorem itemsOf_singleton {ι α : Type} [DecidableEq ι] (p p' : ι) (item : α) :
    itemsOf p [(p', item)] = if p' = p then [item] else [] := by
  by_cases same : p' = p
  · simp [itemsOf, same]
  · simp [itemsOf, same]

namespace System

variable {ι α : Type} {C : Capacity} [DecidableEq ι]

/-! ## Calls and claims -/

/-- What the logs say of a producer before each of its steps: every call has claimed a position,
except the one it is about to claim for, and it is not inside `try_produce`. -/
def CallsOf (s : System ι α C) (p : ι) : Producer α → Prop
  | .claim item => itemsOf p s.calls = itemsOf p s.claims ++ [item]
  | .tryLoad _ => False
  | .tryCheck .. => False
  | .tryClaim .. => False
  | _ => itemsOf p s.calls = itemsOf p s.claims

def CallsInv (s : System ι α C) : Prop :=
  ∀ p, s.CallsOf p (s.producers p)

theorem CallsOf.congr {s s' : System ι α C} {p : ι} {state : Producer α}
    (own : s.CallsOf p state) (calls : itemsOf p s'.calls = itemsOf p s.calls)
    (claims : itemsOf p s'.claims = itemsOf p s.claims) : s'.CallsOf p state := by
  cases state <;> simp only [CallsOf, calls, claims] at own ⊢ <;> exact own

theorem CallsInv.move {s s' : System ι α C} (inv : s.CallsInv) (p : ι) {state : Producer α}
    (producers : s'.producers = Function.update s.producers p state)
    (calls : ∀ p', p' ≠ p → itemsOf p' s'.calls = itemsOf p' s.calls)
    (claims : ∀ p', p' ≠ p → itemsOf p' s'.claims = itemsOf p' s.claims)
    (own : s'.CallsOf p state) : s'.CallsInv := by
  intro p'
  rw [producers]
  by_cases same : p' = p
  · subst same
    rw [Function.update_self]
    exact own
  · rw [Function.update_of_ne same]
    exact (inv p').congr (calls p' same) (claims p' same)

/-- A log that `p` extends is unchanged for the others. -/
theorem itemsOf_concat_of_ne {p p' : ι} (ne : p' ≠ p) (log : List (ι × α)) (item : α) :
    itemsOf p' (log ++ [(p, item)]) = itemsOf p' log := by
  rw [itemsOf_append, itemsOf_singleton, if_neg (Ne.symm ne), List.append_nil]

theorem itemsOf_concat_self (p : ι) (log : List (ι × α)) (item : α) :
    itemsOf p (log ++ [(p, item)]) = itemsOf p log ++ [item] := by
  rw [itemsOf_append, itemsOf_singleton, if_pos rfl]

theorem CallsInv.stepProducer {s s' : System ι α C} (inv : s.CallsInv) {p : ι}
    (step : s.stepProducer p = some s') : s'.CallsInv := by
  have own := inv p
  cases produces_of_stepProducer step with
  | tryLoad state | free state | full state | tryClaim state =>
      rw [state] at own
      exact own.elim
  | @claim item state =>
      rw [state] at own
      refine inv.move p rfl (fun _ _ => rfl)
        (fun p' ne => itemsOf_concat_of_ne ne s.claims item) ?_
      exact Eq.trans own (itemsOf_concat_self p s.claims item).symm
  | wait => exact inv
  | enter state | copy state | publish state | done state =>
      rw [state] at own
      exact inv.move p rfl (fun _ _ => rfl) (fun _ _ => rfl) own

theorem keeps_callsInv : (machine ι α C).Keeps (fun _ l => l.blocking = true) CallsInv := by
  intro s l s' inv blocking step
  cases l with
  | produce p item =>
      obtain ⟨idle, rfl⟩ := of_step_produce step
      have own := inv p
      rw [idle] at own
      refine inv.move p rfl (fun p' ne => itemsOf_concat_of_ne ne s.calls item)
        (fun _ _ => rfl) ?_
      show itemsOf p (s.calls ++ [(p, item)]) = itemsOf p s.claims ++ [item]
      rw [itemsOf_concat_self]
      exact congrArg (· ++ [item]) own
  | tryProduce => cases blocking
  | producer p => exact inv.stepProducer step
  | consume =>
      obtain ⟨-, rfl⟩ := of_step_consume step
      exact fun p => (inv p).congr rfl rfl
  | consumer =>
      cases consumes_of_stepConsumer step <;> exact fun p => (inv p).congr rfl rfl

/-! ## Delivery -/

/-- What the logs of a run of `produce` and `consume` show. -/
structure Delivery (s : System ι α C) : Prop where
  /-- `consume` has returned the payloads of the first positions, in order of position. -/
  inOrder : s.returned = (s.claims.map Prod.snd).take s.returned.length
  /-- `consume` finds nothing only while the next position is not published. -/
  notSkipped : s.consumer = .check → s.ring.ready = false → ¬ s.Published s.returned.length
  /-- A published payload stays in its slot until the consumer has freed it. -/
  intact : ∀ q p item, s.freed ≤ q → s.Published q → s.claims[q]? = some (p, item) →
    (s.ring.slots (C.cell q)).data = item
  /-- A payload store goes to a slot whose earlier positions the consumer has all freed. -/
  noOverwrite : ∀ p item pos, s.producers p = .copy item pos →
    ∀ q, s.Published q → C.cell q = C.slot pos → q < s.freed
  /-- What `consume` has returned of one producer is the beginning of its calls. -/
  programOrder : ∀ p, itemsOf p (s.claims.take s.returned.length) <+: itemsOf p s.calls
  /-- Once the producers are done and `consume` finds nothing, everything has come out. -/
  complete : (∀ p, s.producers p = .idle) → s.consumer = .check → s.ring.ready = false →
    s.returned = s.claims.map Prod.snd ∧ ∀ p, itemsOf p s.claims = itemsOf p s.calls

omit [DecidableEq ι] in
theorem Inv.ready_iff {s : System ι α C} (inv : s.Inv) (check : s.consumer = .check) :
    s.ring.ready ↔ s.Published s.returned.length := by
  have freed : s.freed = s.returned.length := by rw [System.freed, check]; rfl
  have read := inv.read
  rw [check] at read
  have ready := inv.layout.ready_iff (by rw [freed]; exact read)
  rw [freed] at ready
  exact ready

omit [DecidableEq ι] in
/-- A payload store does not hit a published position that is still to be consumed. -/
theorem Inv.noOverwrite {s : System ι α C} (inv : s.Inv) {p : ι} {item : α} {pos : BitVec 64}
    (state : s.producers p = .copy item pos) {q : Nat} (pub : s.Published q)
    (same : C.cell q = C.slot pos) : q < s.freed := by
  have own := inv.producers p
  rw [state] at own
  obtain ⟨r, holds, rfl, le, lt⟩ := own
  rw [C.slot_ofNat] at same
  by_contra unfreed
  have eq := C.eq_of_cell_eq same (Nat.not_lt.mp unfreed) (inv.layout.near q pub) le lt
  exact pub.2 ⟨p, item, eq ▸ holds, by rw [state]; rfl⟩

theorem CallsInv.claims_isPrefix {s : System ι α C} (inv : s.CallsInv) (p : ι) :
    itemsOf p s.claims <+: itemsOf p s.calls := by
  have own := inv p
  cases state : s.producers p with
  | claim item =>
      rw [state] at own
      exact ⟨[item], own.symm⟩
  | tryLoad | tryCheck | tryClaim =>
      rw [state] at own
      exact own.elim
  | _ =>
      rw [state] at own
      exact ⟨[], (List.append_nil _).trans (Eq.symm own)⟩

theorem delivery_of_inv {s : System ι α C} (inv : s.Inv) (calls : s.CallsInv) : s.Delivery where
  inOrder := List.prefix_iff_eq_take.mp inv.returned
  notSkipped := fun check empty pub => by
    have ready := (inv.ready_iff check).mpr pub
    rw [empty] at ready
    cases ready
  intact := fun q p item le pub claimed => by rw [inv.layout.full q p item le pub claimed]
  noOverwrite := fun _ _ _ state _ pub same => inv.noOverwrite state pub same
  programOrder := fun p => by
    refine List.IsPrefix.trans ?_ (calls.claims_isPrefix p)
    exact ((List.take_prefix _ _).filter _).map _
  complete := fun idle check empty => by
    refine ⟨?_, fun p => ?_⟩
    · have all : s.claims.length ≤ s.returned.length := by
        by_contra short
        have settled : ¬ s.Pending s.returned.length := fun ⟨p, _, _, flight⟩ => by
          rw [idle p] at flight
          cases flight
        have ready := (inv.ready_iff check).mpr ⟨Nat.not_le.mp short, settled⟩
        rw [empty] at ready
        cases ready
      have eq := List.prefix_iff_eq_take.mp inv.returned
      rw [List.take_of_length_le (by rw [List.length_map]; exact all)] at eq
      exact eq
    · have own := calls p
      rw [idle p] at own
      exact Eq.symm own

theorem new_callsInv (data : Fin C.size → α) : (System.new data : System ι α C).CallsInv :=
  fun _ => rfl

/-- **Delivery.** In every state that any interleaving of any number of `produce` calls with one
consumer reaches, `consume` has returned exactly the payloads of the first positions, in order:
none lost, none twice, none overwritten, and each producer's items in its own order. -/
theorem produce_delivery [Fintype ι] (two_le : 2 ≤ C.size) (few : Fintype.card ι < 2 ^ 32)
    (data : Fin C.size → α) (labels : List (Label ι α)) (blocking : ∀ l ∈ labels, l.blocking = true)
    (s : System ι α C) (reached : (machine ι α C).run (.new data) labels = some s) :
    s.Delivery := by
  have inv : s.Inv := by
    have size := C.size_le
    refine (keeps_inv two_le (by omega)).run (new_inv data) ?_ reached
    exact Machine.along_of_forall_mem (fun l mem _ => Label.allowed_of_blocking (blocking l mem)) _
  have calls : s.CallsInv :=
    keeps_callsInv.run (new_callsInv data)
      (Machine.along_of_forall_mem (fun l mem _ => blocking l mem) _) reached
  exact delivery_of_inv inv calls

/-- Two producers claim in one order and publish in the other, on a ring of two slots; the
consumer finds the second payload published first and waits for the first. -/
def crossedPublication : List (Label (Fin 2) Nat) :=
  [.produce 0 10, .produce 1 11, .producer 0, .producer 1, .producer 1, .producer 1, .producer 1,
    .consume, .consumer, .consumer, .producer 0, .producer 0, .producer 0,
    .consume, .consumer, .consumer, .consumer, .consumer, .consumer,
    .consume, .consumer, .consumer, .consumer, .consumer, .consumer]

theorem produce_delivery_crossed :
    ∃ s : System (Fin 2) Nat ⟨2, by decide, by decide, by decide⟩,
      (machine (Fin 2) Nat _).run (.new fun _ => 0) crossedPublication = some s ∧
      s.returned = [10, 11] ∧ s.Delivery := by
  have returned : ((machine (Fin 2) Nat ⟨2, by decide, by decide, by decide⟩).run
      (.new fun _ => 0) crossedPublication).map System.returned = some [10, 11] := rfl
  obtain ⟨s, reached, eq⟩ := Option.map_eq_some_iff.mp returned
  exact ⟨s, reached, eq, produce_delivery (by decide) (by decide) _ _ (by decide) s reached⟩

end System

end Tickscope.Memory
