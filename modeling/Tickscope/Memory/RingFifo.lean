import Mathlib.Logic.Unique
import Tickscope.Lib.BoundedFifo
import Tickscope.Memory.RingInvariant

/-!
# Refinement of the bounded queue

`try_produce` called by one thread, `consume` by another. `System.fifo` reads the
abstract queue off a state of the ring: the items whose sequence store has been
made, without those whose slot has been freed. `simulates_fifo` is the step
lemma; an item enters the queue with the sequence store that publishes it and
leaves it with the one that frees its slot.

The refinement needs two slots. With one slot, which the `static_assert`s admit,
the number behind a published position is the slot's number for the next lap, and
a full ring accepts.
-/

namespace Tickscope.Memory

open Tickscope.Lib RingBuffer

/-- The step is not a call of `produce`. -/
def Label.trying {ι α : Type} : Label ι α → Bool
  | .produce .. => false
  | _ => true

/-! ## The abstract queue of a state -/

/-- The producer thread as the queue's specification sees it. -/
def Producer.pusher {α : Type} : Producer α → Pusher α
  | .idle => .idle
  | .claim item => .called item
  | .spin item _ => .called item
  | .tryLoad item => .called item
  | .tryCheck item _ => .called item
  | .tryClaim item _ => .called item
  | .copy item _ => .called item
  | .publish item _ => .called item
  | .done accepted => .done accepted

def Consumer.popper {α : Type} : Consumer α → Popper α
  | .idle => .idle
  | .check => .called
  | .copy => .called
  | .release _ => .called
  | .advance out => .done (some out)
  | .done out => .done out

namespace System

variable {α : Type} {C : Capacity}

/-- The items of the claims whose sequence store has been made. -/
def accepted (s : System Unit α C) : List α :=
  if (s.producers ()).inFlight then (s.claims.map Prod.snd).dropLast
  else s.claims.map Prod.snd

def fifo (s : System Unit α C) : Fifo α where
  items := s.accepted.drop s.freed
  pusher := (s.producers ()).pusher
  popper := s.consumer.popper

/-- What the two callers see of a step. -/
def events (s : System Unit α C) : Label Unit α → List (Fifo.Event α)
  | .produce _ item => [.callPush item]
  | .tryProduce _ item => [.callPush item]
  | .producer p =>
      match s.producers p with
      | .done accepted => [.returnPush accepted]
      | _ => []
  | .consume => [.callPop]
  | .consumer =>
      match s.consumer with
      | .done out => [.returnPop out]
      | _ => []

/-! ## What the invariant says of one producer -/

theorem accepted_of_inFlight {s : System Unit α C} (flight : (s.producers ()).inFlight = true) :
    s.accepted = (s.claims.map Prod.snd).dropLast := by
  rw [accepted, if_pos flight]

theorem accepted_of_outside {s : System Unit α C} (outside : (s.producers ()).inFlight = false) :
    s.accepted = s.claims.map Prod.snd := by
  rw [accepted, outside, if_neg Bool.false_ne_true]

theorem accepted_of_quiet {s s' : System Unit α C} (claims : s'.claims = s.claims)
    (inFlight : (s'.producers ()).inFlight = (s.producers ()).inFlight) :
    s'.accepted = s.accepted := by
  rw [accepted, accepted, claims, inFlight]

/-- `fetch_add` accepts nothing: the claim is not published. -/
theorem accepted_of_claim {s s' : System Unit α C} {item : α}
    (claims : s'.claims = s.claims ++ [((), item)]) (outside : (s.producers ()).inFlight = false)
    (inside : (s'.producers ()).inFlight = true) : s'.accepted = s.accepted := by
  rw [accepted_of_outside outside, accepted_of_inFlight inside, claims, List.map_append,
    List.map_singleton, List.dropLast_concat]

/-- The only producer's claim is the last one. -/
theorem HoldsClaim.eq_concat {s : System Unit α C} {item : α} {q : Nat}
    (holds : s.HoldsClaim () item q) :
    q + 1 = s.claims.length ∧ s.claims.map Prod.snd = (s.claims.map Prod.snd).dropLast ++ [item] := by
  have last : q + 1 = s.claims.length := by
    refine Nat.le_antisymm holds.lt (Nat.not_lt.mp fun lt => ?_)
    have later := List.getElem?_eq_getElem lt
    exact holds.2 (q + 1) s.claims[q + 1].2 (Nat.lt_succ_self q) later
  refine ⟨last, ?_⟩
  have at_end : s.claims.getLast? = some ((), item) := by
    rw [List.getLast?_eq_getElem?, ← last]
    exact holds.1
  have payload : (s.claims.map Prod.snd).getLast? = some item := by
    rw [List.getLast?_map, at_end]
    rfl
  exact (List.dropLast_append_getLast? item payload).symm

theorem Inv.published_iff {s : System Unit α C} (inv : s.Inv) (q : Nat) :
    s.Published q ↔ q < s.accepted.length := by
  cases flight : (s.producers ()).inFlight with
  | false =>
      rw [accepted_of_outside flight, List.length_map]
      refine ⟨fun pub => pub.1, fun lt => ⟨lt, fun ⟨_, _, _, inside⟩ => ?_⟩⟩
      rw [flight] at inside
      cases inside
  | true =>
      obtain ⟨item, last, holds, -⟩ := inv.holdsClaim flight
      have length := holds.eq_concat.1
      rw [accepted_of_inFlight flight, List.length_dropLast, List.length_map]
      constructor
      · intro isPublished
        rcases isPublished with ⟨lt, settled⟩
        have ne : q ≠ last := by
          intro same
          subst same
          exact settled ⟨(), item, holds, flight⟩
        omega
      · intro lt
        refine ⟨by omega, fun ⟨_, _, holds', _⟩ => ?_⟩
        have := holds'.unique holds
        omega

theorem Inv.freed_le {s : System Unit α C} (inv : s.Inv) : s.freed ≤ s.accepted.length := by
  cases flight : (s.producers ()).inFlight with
  | false =>
      rw [accepted_of_outside flight, List.length_map]
      exact inv.layout.freed_le
  | true =>
      obtain ⟨item, q, holds, le⟩ := inv.holdsClaim flight
      have length := holds.eq_concat.1
      rw [accepted_of_inFlight flight, List.length_dropLast, List.length_map]
      omega

/-- The claims of a single producer never leave the window. -/
theorem Inv.accepted_length_le {s : System Unit α C} (inv : s.Inv) :
    s.accepted.length ≤ s.freed + C.size := by
  by_contra long
  have pub : s.Published (s.accepted.length - 1) := (inv.published_iff _).mpr (by omega)
  have := inv.layout.near _ pub
  omega

/-- The sequence check of `try_produce` fails exactly when the window is full. -/
theorem Inv.tryCheck_iff {s : System Unit α C} (inv : s.Inv) (two_le : 2 ≤ C.size) {item : α}
    {pos : BitVec 64} (state : s.producers () = .tryCheck item pos) :
    s.ring.loadSequence pos ≠ pos ↔ s.accepted.length = s.freed + C.size := by
  have outside : (s.producers ()).inFlight = false := by rw [state]; rfl
  have own := inv.producers ()
  rw [state] at own
  obtain ⟨-, rfl⟩ := own
  have length : s.accepted.length = s.claims.length := by
    rw [accepted_of_outside outside, List.length_map]
  have le := inv.accepted_length_le
  have freed := inv.freed_le
  have size := C.size_le
  rw [loadSequence_ofNat]
  constructor
  · intro taken
    by_contra room
    refine taken (inv.layout.load_of_free inv.layout.freed_le (by omega) fun pub => ?_)
    exact Nat.lt_irrefl _ pub.1
  · intro full load
    have := (inv.layout.free_of_load two_le inv.layout.freed_le (by omega) load).1
    omega

/-- The check of `consume` fails exactly when everything accepted has been freed. -/
theorem Inv.check_iff {s : System Unit α C} (inv : s.Inv) (state : s.consumer = .check) :
    s.ring.ready = false ↔ s.accepted.length = s.freed := by
  have freed : s.freed = s.returned.length := by rw [System.freed, state]; rfl
  have read := inv.read
  rw [state] at read
  have ready := inv.layout.ready_iff (by rw [freed]; exact read)
  have le := inv.freed_le
  rw [inv.published_iff] at ready
  rw [← Bool.not_eq_true, ready]
  omega

/-- What `consume` frees is the oldest item of the queue. -/
theorem Inv.release_oldest {s : System Unit α C} (inv : s.Inv) {out : α}
    (state : s.consumer = .release out) :
    s.accepted.drop s.freed = out :: s.accepted.drop (s.freed + 1) := by
  have freed : s.freed = s.returned.length := by rw [System.freed, state]; rfl
  have own := inv.consumer
  rw [state] at own
  obtain ⟨pub, p, claimed⟩ := own
  rw [← freed] at pub claimed
  have lt := (inv.published_iff _).mp pub
  have payload : (s.claims.map Prod.snd)[s.freed]? = some out := by
    rw [List.getElem?_map, claimed]
    rfl
  have stored : s.accepted[s.freed]? = some out := by
    cases flight : (s.producers ()).inFlight with
    | false => rw [accepted_of_outside flight, payload]
    | true =>
        rw [accepted_of_inFlight flight] at lt ⊢
        rw [List.getElem?_dropLast, if_pos (by simpa using lt), payload]
  obtain ⟨_, eq⟩ := List.getElem?_eq_some_iff.mp stored
  rw [List.drop_eq_getElem_cons lt, eq]

/-- A producer's claim is the item it publishes. -/
theorem Inv.publish_accepted {s : System Unit α C} (inv : s.Inv) {item : α} {pos : BitVec 64}
    (state : s.producers () = .publish item pos) :
    s.claims.map Prod.snd = s.accepted ++ [item] ∧ s.accepted.length < s.freed + C.size := by
  have own := inv.producers ()
  rw [state] at own
  obtain ⟨q, holds, -, -, lt, -⟩ := own
  obtain ⟨length, eq⟩ := holds.eq_concat
  have accepted := accepted_of_inFlight (s := s) (by rw [state]; rfl)
  refine ⟨by rw [accepted]; exact eq, ?_⟩
  rw [accepted, List.length_dropLast, List.length_map]
  omega

/-! ## What has been accepted -/

theorem isPrefix_of_quiet {s s' : System Unit α C} (claims : s'.claims = s.claims)
    (inFlight : (s'.producers ()).inFlight = (s.producers ()).inFlight) :
    s.accepted <+: s'.accepted := by
  rw [accepted_of_quiet claims inFlight]

theorem isPrefix_of_claim {s s' : System Unit α C} {item : α}
    (claims : s'.claims = s.claims ++ [((), item)]) (outside : (s.producers ()).inFlight = false)
    (inside : (s'.producers ()).inFlight = true) : s.accepted <+: s'.accepted := by
  rw [accepted_of_claim claims outside inside]

/-- The accepted items only grow, with the sequence store of a call. -/
theorem Inv.accepted_stepProducer {s s' : System Unit α C} (inv : s.Inv)
    (step : s.stepProducer () = some s') : s.accepted <+: s'.accepted := by
  cases produces_of_stepProducer step with
  | claim state => exact isPrefix_of_claim rfl (by rw [state]; rfl) rfl
  | tryClaim state => exact isPrefix_of_claim rfl (by rw [state]; rfl) rfl
  | wait => exact List.prefix_refl _
  | enter state | tryLoad state | free state | full state | copy state | done state =>
      exact isPrefix_of_quiet rfl (by rw [state]; rfl)
  | @publish item pos state => exact ⟨[item], (inv.publish_accepted state).1.symm⟩

theorem accepted_stepConsumer {s s' : System Unit α C} (step : s.stepConsumer = some s') :
    s'.accepted = s.accepted := by
  cases consumes_of_stepConsumer step <;> rfl

theorem Inv.accepted_step {s s' : System Unit α C} (inv : s.Inv) {l : Label Unit α}
    (step : s.step l = some s') : s.accepted <+: s'.accepted := by
  cases l with
  | produce p item =>
      obtain ⟨idle, rfl⟩ := of_step_produce step
      exact isPrefix_of_quiet rfl (by rw [idle]; rfl)
  | tryProduce p item =>
      obtain ⟨idle, rfl⟩ := of_step_tryProduce step
      exact isPrefix_of_quiet rfl (by rw [idle]; rfl)
  | producer p => exact inv.accepted_stepProducer step
  | consume =>
      obtain ⟨-, rfl⟩ := of_step_consume step
      exact List.prefix_refl _
  | consumer => rw [accepted_stepConsumer step]

/-- Everything returned has been accepted. -/
theorem Inv.returned_isPrefix {s : System Unit α C} (inv : s.Inv) :
    s.returned <+: s.accepted := by
  have accepted : s.accepted <+: s.claims.map Prod.snd := by
    rw [System.accepted]
    split
    · exact List.dropLast_prefix _
    · exact List.prefix_refl _
  refine List.prefix_of_prefix_length_le inv.returned accepted ?_
  exact (Nat.le_add_right _ _).trans inv.freed_le

/-- A consumer that finds nothing has returned everything that was accepted. -/
theorem Inv.returned_eq_accepted {s : System Unit α C} (inv : s.Inv) (state : s.consumer = .check)
    (empty : s.ring.ready = false) : s.returned = s.accepted := by
  refine inv.returned_isPrefix.eq_of_length ?_
  have length := (inv.check_iff state).mp empty
  rw [System.freed, state] at length
  exact length.symm

/-! ## The simulation -/

/-- A step that nobody sees and that leaves the abstract queue alone. -/
theorem matched_nil {s s' : System Unit α C} {l : Label Unit α} (unseen : s.events l = [])
    (same : s'.fifo = s.fifo) :
    ∃ ks q', (Fifo.machine α C.size).run s.fifo ks = some q' ∧
      (Fifo.machine α C.size).trace Fifo.events s.fifo ks = s.events l ∧ q' = s'.fifo :=
  ⟨[], s.fifo, rfl, unseen.symm, same.symm⟩

/-- A step that is one step of the abstract queue. -/
theorem matched_one {s s' : System Unit α C} {l : Label Unit α} (k : Fifo.Label α)
    (seen : Fifo.events s.fifo k = s.events l) (step : Fifo.step C.size s.fifo k = some s'.fifo) :
    ∃ ks q', (Fifo.machine α C.size).run s.fifo ks = some q' ∧
      (Fifo.machine α C.size).trace Fifo.events s.fifo ks = s.events l ∧ q' = s'.fifo := by
  refine ⟨[k], s'.fifo, Machine.run_cons_eq_some.mpr ⟨_, step, rfl⟩, ?_, rfl⟩
  rw [Machine.trace_cons step, Machine.trace_nil, List.append_nil, seen]

/-- A producer's step that moves no item. -/
theorem fifo_of_quiet (s s' : System Unit α C) (claims : s'.claims = s.claims)
    (consumer : s'.consumer = s.consumer) (returned : s'.returned = s.returned)
    (inFlight : (s'.producers ()).inFlight = (s.producers ()).inFlight) :
    s'.fifo = { s.fifo with pusher := (s'.producers ()).pusher } := by
  simp only [fifo, accepted_of_quiet claims inFlight, System.freed, consumer, returned]

theorem fifo_of_claim (s s' : System Unit α C) {item : α}
    (claims : s'.claims = s.claims ++ [((), item)]) (consumer : s'.consumer = s.consumer)
    (returned : s'.returned = s.returned) (outside : (s.producers ()).inFlight = false)
    (inside : (s'.producers ()).inFlight = true) :
    s'.fifo = { s.fifo with pusher := (s'.producers ()).pusher } := by
  simp only [fifo, accepted_of_claim claims outside inside, System.freed, consumer, returned]

/-- A consumer's step that moves no item. -/
theorem fifo_of_quietConsumer (s s' : System Unit α C) (claims : s'.claims = s.claims)
    (producers : s'.producers = s.producers) (freed : s'.freed = s.freed) :
    s'.fifo = { s.fifo with popper := s'.consumer.popper } := by
  simp only [fifo, accepted, claims, producers, freed]

/-- The call goes on without moving an item. -/
theorem matched_quiet {s s' : System Unit α C} {l : Label Unit α} (unseen : s.events l = [])
    (claims : s'.claims = s.claims) (consumer : s'.consumer = s.consumer)
    (returned : s'.returned = s.returned)
    (inFlight : (s'.producers ()).inFlight = (s.producers ()).inFlight)
    (pusher : (s'.producers ()).pusher = (s.producers ()).pusher) :
    ∃ ks q', (Fifo.machine α C.size).run s.fifo ks = some q' ∧
      (Fifo.machine α C.size).trace Fifo.events s.fifo ks = s.events l ∧ q' = s'.fifo := by
  refine matched_nil unseen ?_
  rw [fifo_of_quiet s s' claims consumer returned inFlight, pusher]
  rfl

theorem matched_claim {s s' : System Unit α C} {l : Label Unit α} {item : α}
    (unseen : s.events l = []) (claims : s'.claims = s.claims ++ [((), item)])
    (consumer : s'.consumer = s.consumer) (returned : s'.returned = s.returned)
    (outside : (s.producers ()).inFlight = false) (inside : (s'.producers ()).inFlight = true)
    (pusher : (s'.producers ()).pusher = (s.producers ()).pusher) :
    ∃ ks q', (Fifo.machine α C.size).run s.fifo ks = some q' ∧
      (Fifo.machine α C.size).trace Fifo.events s.fifo ks = s.events l ∧ q' = s'.fifo := by
  refine matched_nil unseen ?_
  rw [fifo_of_claim s s' claims consumer returned outside inside, pusher]
  rfl

theorem matched_quietConsumer {s s' : System Unit α C} {l : Label Unit α}
    (unseen : s.events l = []) (claims : s'.claims = s.claims)
    (producers : s'.producers = s.producers) (freed : s'.freed = s.freed)
    (popper : s'.consumer.popper = s.consumer.popper) :
    ∃ ks q', (Fifo.machine α C.size).run s.fifo ks = some q' ∧
      (Fifo.machine α C.size).trace Fifo.events s.fifo ks = s.events l ∧ q' = s'.fifo := by
  refine matched_nil unseen ?_
  rw [fifo_of_quietConsumer s s' claims producers freed, popper]
  rfl

/-- The queue's pushing thread moves, and nothing else. -/
theorem matched_pusher {s s' : System Unit α C} {l : Label Unit α} (k : Fifo.Label α)
    (seen : Fifo.events s.fifo k = s.events l) (claims : s'.claims = s.claims)
    (consumer : s'.consumer = s.consumer) (returned : s'.returned = s.returned)
    (inFlight : (s'.producers ()).inFlight = (s.producers ()).inFlight)
    (step : Fifo.step C.size s.fifo k =
      some { s.fifo with pusher := (s'.producers ()).pusher }) :
    ∃ ks q', (Fifo.machine α C.size).run s.fifo ks = some q' ∧
      (Fifo.machine α C.size).trace Fifo.events s.fifo ks = s.events l ∧ q' = s'.fifo := by
  refine matched_one k seen ?_
  rw [step, fifo_of_quiet s s' claims consumer returned inFlight]

/-- The queue's popping thread moves, and nothing else. -/
theorem matched_popper {s s' : System Unit α C} {l : Label Unit α} (k : Fifo.Label α)
    (seen : Fifo.events s.fifo k = s.events l) (claims : s'.claims = s.claims)
    (producers : s'.producers = s.producers) (freed : s'.freed = s.freed)
    (step : Fifo.step C.size s.fifo k = some { s.fifo with popper := s'.consumer.popper }) :
    ∃ ks q', (Fifo.machine α C.size).run s.fifo ks = some q' ∧
      (Fifo.machine α C.size).trace Fifo.events s.fifo ks = s.events l ∧ q' = s'.fifo := by
  refine matched_one k seen ?_
  rw [step, fifo_of_quietConsumer s s' claims producers freed]

/-! ### The producer's steps -/

theorem matched_stepProducer {s s' : System Unit α C} (inv : s.Inv) (two_le : 2 ≤ C.size)
    (step : s.stepProducer () = some s') :
    ∃ ks q', (Fifo.machine α C.size).run s.fifo ks = some q' ∧
      (Fifo.machine α C.size).trace Fifo.events s.fifo ks = s.events (.producer ()) ∧
      q' = s'.fifo := by
  cases produces_of_stepProducer step with
  | claim state | tryClaim state =>
      exact matched_claim (by simp only [events, state]) rfl rfl rfl (by rw [state]; rfl) rfl
        (by rw [state]; rfl)
  | wait state => exact matched_nil (by simp only [events, state]) rfl
  | enter state | tryLoad state | free state | copy state =>
      exact matched_quiet (by simp only [events, state]) rfl rfl rfl (by rw [state]; rfl)
        (by rw [state]; rfl)
  | full state taken =>
      refine matched_pusher .push (by simp only [events, Fifo.events, state]) rfl rfl rfl
        (by rw [state]; rfl) ?_
      have noRoom : ¬ (s.accepted.drop s.freed).length < C.size := by
        rw [List.length_drop, (inv.tryCheck_iff two_le state).mp taken]
        omega
      simp only [fifo, Fifo.step, state, Producer.pusher, if_neg noRoom]
      rfl
  | publish state =>
      obtain ⟨published, lt⟩ := inv.publish_accepted state
      have le := inv.freed_le
      refine matched_one .push (by simp only [events, Fifo.events, state]) ?_
      have room : (s.accepted.drop s.freed).length < C.size := by
        rw [List.length_drop]
        omega
      simp only [Fifo.step, fifo, state, Producer.pusher, if_pos room]
      rw [← List.drop_append_of_le_length le, ← published]
      rfl
  | done state =>
      refine matched_pusher .returnPush (by simp only [events, Fifo.events, fifo, state]; rfl)
        rfl rfl rfl (by rw [state]; rfl) ?_
      simp only [Fifo.step, fifo, state]
      rfl

/-! ### The consumer's steps -/

theorem matched_stepConsumer {s s' : System Unit α C} (inv : s.Inv)
    (step : s.stepConsumer = some s') :
    ∃ ks q', (Fifo.machine α C.size).run s.fifo ks = some q' ∧
      (Fifo.machine α C.size).trace Fifo.events s.fifo ks = s.events .consumer ∧
      q' = s'.fifo := by
  cases consumes_of_stepConsumer step with
  | found state | copy state | advance state =>
      exact matched_quietConsumer (by simp only [events, state]) rfl rfl
        (by rw [freed, freed, state]; rfl) (by rw [state]; rfl)
  | nothing state loaded =>
      refine matched_popper .pop (by simp only [events, Fifo.events, state]) rfl rfl
        (by rw [freed, freed, state]; rfl) ?_
      have none : s.accepted.drop s.freed = [] := by
        rw [List.drop_eq_nil_iff, (inv.check_iff state).mp loaded]
      simp only [Fifo.step, fifo, state, Consumer.popper, none]
  | release state =>
      have oldest := inv.release_oldest state
      have before : s.freed = s.returned.length := by rw [freed, state]; rfl
      refine matched_one .pop (by simp only [events, Fifo.events, state]) ?_
      rw [before] at oldest
      simp only [Fifo.step, fifo, state, Consumer.popper, before, oldest]
      rfl
  | @done out state =>
      have after : ({ s with
          consumer := .idle
          returned := s.returned ++ out.toList } : System Unit α C).freed = s.freed := by
        rw [freed, freed, state]
        cases out with
        | none => exact congrArg List.length (List.append_nil _)
        | some out => exact List.length_append
      refine matched_popper .returnPop (by simp only [events, Fifo.events, fifo, state]; rfl)
        rfl rfl after ?_
      simp only [Fifo.step, fifo, state]
      rfl

/-! ### Every run -/

theorem few_unit : C.size + Fintype.card Unit < 2 ^ 64 := by
  have size := C.size_le
  have one : Fintype.card Unit = 1 := rfl
  omega

theorem allowed_unit (l : Label Unit α) : l.Allowed := by
  cases l with
  | tryProduce => exact fun _ => rfl
  | _ => exact True.intro

/-- **The ring simulates the bounded queue.** -/
theorem simulates_fifo (two_le : 2 ≤ C.size) :
    Machine.Simulates (machine Unit α C) events (Fifo.machine α C.size) Fifo.events
      (fun _ _ => True) fun s q => s.Inv ∧ q = s.fifo := by
  rintro s q l s' ⟨inv, rfl⟩ - step
  have inv' := keeps_inv two_le few_unit inv (allowed_unit l) step
  suffices ∃ ks q', (Fifo.machine α C.size).run s.fifo ks = some q' ∧
      (Fifo.machine α C.size).trace Fifo.events s.fifo ks = s.events l ∧ q' = s'.fifo by
    obtain ⟨ks, q', run, seen, eq⟩ := this
    exact ⟨ks, q', run, seen, inv', eq⟩
  cases l with
  | produce p item =>
      obtain ⟨idle, rfl⟩ := of_step_produce step
      refine matched_pusher (.callPush item) rfl rfl rfl rfl (by rw [idle]; rfl) ?_
      simp only [Fifo.step, fifo, idle]
      rfl
  | tryProduce p item =>
      obtain ⟨idle, rfl⟩ := of_step_tryProduce step
      refine matched_pusher (.callPush item) rfl rfl rfl rfl (by rw [idle]; rfl) ?_
      simp only [Fifo.step, fifo, idle]
      rfl
  | producer p => exact matched_stepProducer inv two_le step
  | consume =>
      obtain ⟨idle, rfl⟩ := of_step_consume step
      refine matched_popper .callPop rfl rfl rfl (by rw [freed, freed, idle]; rfl) ?_
      simp only [Fifo.step, fifo, idle]
      rfl
  | consumer => exact matched_stepConsumer inv step

theorem new_fifo (data : Fin C.size → α) : (System.new data : System Unit α C).fifo = .new := rfl

/-- The states that calls of `try_produce` and `consume` reach. -/
def TryReachable (s : System Unit α C) : Prop :=
  ∃ (data : Fin C.size → α) (labels : List (Label Unit α)),
    (∀ l ∈ labels, l.trying = true) ∧ (machine Unit α C).run (.new data) labels = some s

theorem TryReachable.inv {s : System Unit α C} (reachable : s.TryReachable)
    (two_le : 2 ≤ C.size) : s.Inv := by
  obtain ⟨data, labels, -, reached⟩ := reachable
  exact (keeps_inv two_le few_unit).run (new_inv data)
    (Machine.along_of_forall_mem (fun l _ _ => allowed_unit l) _) reached

/-- One thread calling `try_produce` and one calling `consume` see a queue of `Capacity` places. -/
structure RefinesFifo (α : Type) (C : Capacity) : Prop where
  /-- Every history of calls and returns is one of the bounded queue. -/
  history : ∀ (data : Fin C.size → α) (labels : List (Label Unit α)) (s : System Unit α C),
    (∀ l ∈ labels, l.trying = true) → (machine Unit α C).run (.new data) labels = some s →
    ∃ ks q, (Fifo.machine α C.size).run .new ks = some q ∧
      (Fifo.machine α C.size).trace Fifo.events .new ks =
        (machine Unit α C).trace events (.new data) labels
  /-- `try_produce` fails exactly when `Capacity` accepted items have not been released. -/
  full : ∀ s : System Unit α C, s.TryReachable → ∀ item pos,
    s.producers () = .tryCheck item pos →
    (s.stepProducer () = some (s.setProducer () (.done false)) ↔
      s.accepted.length = s.freed + C.size)
  /-- The steps of a failing call write neither `write_index_` nor a slot. -/
  unchanged : ∀ s s' : System Unit α C, s.TryReachable → s.stepProducer () = some s' →
    ((∃ item, s.producers () = .tryLoad item) → s'.ring = s.ring) ∧
    (s'.producers () = .done false →
      (∃ item pos, s.producers () = .tryCheck item pos) ∧ s'.ring = s.ring)
  /-- A call that succeeds appends its item. -/
  appended : ∀ s s' : System Unit α C, s.TryReachable → s.stepProducer () = some s' →
    s'.producers () = .done true →
    ∃ item pos, s.producers () = .publish item pos ∧ s'.accepted = s.accepted ++ [item]
  /-- `consume` fails exactly when every accepted item has been consumed. -/
  empty : ∀ s : System Unit α C, s.TryReachable → s.consumer = .check →
    (s.ring.ready = false ↔ s.accepted.length = s.freed)
  /-- Otherwise it returns the oldest accepted item and removes it. -/
  oldest : ∀ (s s' : System Unit α C) (out : α), s.TryReachable → s.stepConsumer = some s' →
    s.consumer = .release out → s.accepted[s.freed]? = some out ∧ s'.freed = s.freed + 1

theorem unchanged_of_step {s s' : System Unit α C} (step : s.stepProducer () = some s') :
    ((∃ item, s.producers () = .tryLoad item) → s'.ring = s.ring) ∧
    (s'.producers () = .done false →
      (∃ item pos, s.producers () = .tryCheck item pos) ∧ s'.ring = s.ring) := by
  cases produces_of_stepProducer step with
  | wait state =>
      rw [state]
      exact ⟨fun _ => rfl, nofun⟩
  | tryLoad | enter | free => exact ⟨fun _ => rfl, nofun⟩
  | full state => exact ⟨fun _ => rfl, fun _ => ⟨⟨_, _, state⟩, rfl⟩⟩
  | claim state | tryClaim state | copy state | publish state | done state =>
      rw [state]
      exact ⟨fun ⟨_, eq⟩ => (by cases eq), nofun⟩

theorem appended_of_step {s s' : System Unit α C} (inv : s.Inv)
    (step : s.stepProducer () = some s') (accepted : s'.producers () = .done true) :
    ∃ item pos, s.producers () = .publish item pos ∧ s'.accepted = s.accepted ++ [item] := by
  cases produces_of_stepProducer step with
  | publish state =>
      refine ⟨_, _, state, ?_⟩
      rw [accepted_of_outside (by rw [accepted]; rfl), ← (inv.publish_accepted state).1]
      rfl
  | wait state =>
      rw [state] at accepted
      cases accepted
  | claim | enter | tryLoad | free | full | tryClaim | copy | done => cases accepted

theorem refinesFifo_of_two_le (two_le : 2 ≤ C.size) : RefinesFifo α C where
  history := fun data labels s _ reached => by
    have along : (machine Unit α C).Along (fun _ _ => True) (new data) labels :=
      Machine.along_of_forall_mem (fun _ _ _ => True.intro) (new data)
    obtain ⟨ks, q, run, seen, -⟩ :=
      (simulates_fifo two_le).run ⟨new_inv data, (new_fifo data).symm⟩ along reached
    exact ⟨ks, q, run, seen⟩
  full := fun s reachable item pos state => by
    rw [← (reachable.inv two_le).tryCheck_iff two_le state, stepProducer, state]
    dsimp only
    split
    · rename_i load
      refine ⟨fun eq => ?_, fun taken => (taken load).elim⟩
      have same := congrArg (fun t => t.producers ()) (Option.some.inj eq)
      cases same
    · rename_i taken
      exact ⟨fun _ => taken, fun _ => rfl⟩
  unchanged := fun _ _ _ step => unchanged_of_step step
  appended := fun _ _ reachable step accepted =>
    appended_of_step (reachable.inv two_le) step accepted
  empty := fun _ reachable state => (reachable.inv two_le).check_iff state
  oldest := fun s s' out reachable step state => by
    have oldest := (reachable.inv two_le).release_oldest state
    have before : s.freed = s.returned.length := by rw [freed, state]; rfl
    refine ⟨?_, ?_⟩
    · rw [← List.head?_drop, oldest]
      rfl
    · rw [stepConsumer, state] at step
      cases step
      rw [before]
      rfl

/-! ## One slot -/

/-- Two calls of `try_produce` one after the other, with nothing consumed. -/
def overfill (item : α) : List (Label Unit α) :=
  .tryProduce () item :: List.replicate 6 (.producer ()) ++
    .tryProduce () item :: List.replicate 6 (.producer ())

/-- A ring of one slot accepts twice in a row: the sequence stored for the first item is the
position of the second. -/
theorem overfill_accepted (C : Capacity) (one : C.size = 1) (item : α) :
    ∃ s : System Unit α C, (machine Unit α C).run (.new fun _ => item) (overfill item) = some s ∧
      (machine Unit α C).trace events (.new fun _ => item) (overfill item) =
        [.callPush item, .returnPush true, .callPush item, .returnPush true] := by
  obtain ⟨size, lt, pos, power⟩ := C
  cases one
  have runs : ((machine Unit α ⟨1, lt, pos, power⟩).run (.new fun _ => item)
      (overfill item)).isSome = true := by with_unfolding_all rfl
  obtain ⟨s, reached⟩ := Option.isSome_iff_exists.mp runs
  exact ⟨s, reached, by with_unfolding_all rfl⟩

theorem overfill_trying (item : α) : ∀ l ∈ overfill item, l.trying = true := by
  simp [overfill, Label.trying]

/-- No queue with one place has that history. -/
theorem not_refinesFifo_of_size_eq_one (one : C.size = 1) (item : α) : ¬ RefinesFifo α C := by
  intro refines
  obtain ⟨s, reached, seen⟩ := overfill_accepted C one item
  obtain ⟨ks, q, run, trace⟩ := refines.history _ _ s (overfill_trying item) reached
  have bound := Fifo.accepted_le run
  rw [trace, seen, one] at bound
  exact Nat.lt_irrefl 1 bound

/-- **Refinement of the bounded queue**, exactly for the capacities from two on. -/
theorem refinesFifo_iff [Inhabited α] : RefinesFifo α C ↔ 2 ≤ C.size := by
  refine ⟨fun refines => ?_, refinesFifo_of_two_le⟩
  by_contra small
  have pos := C.size_pos
  exact not_refinesFifo_of_size_eq_one (by omega) default refines

/-- The smallest capacity that the `static_assert`s admit. -/
theorem refinesFifo_fails_at_one :
    ¬ ∀ C : Capacity, RefinesFifo Nat C := fun refines =>
  not_refinesFifo_of_size_eq_one (C := ⟨1, by decide, by decide, by decide⟩) rfl 0 (refines _)

end System

end Tickscope.Memory
