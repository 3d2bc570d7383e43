import Mathlib.Algebra.Group.Nat.Defs
import Mathlib.Data.Nat.Basic
import Mathlib.Logic.Function.Basic
import Tickscope.Lib.Machine

/-!
# The ring buffer

`include/polymarket/memory/RingBuffer.hpp`, one atomic step at a time. A slot
holds a sequence counter and a payload; `size_t` is `BitVec 64`, so positions
wrap modulo `2 ^ 64` as they do in the code. Steps are sequentially consistent.

A producer thread inside `produce` or `try_produce`, and the consumer thread
inside `consume`, is described by the atomic step it takes next (`Producer`,
`Consumer`). `System` puts the threads around one ring and adds three logs that
no thread reads: the calls made, the claims in the order of `fetch_add` (so the
log's index is the claimed position before it wraps), and the values that
`consume` has returned.
-/

namespace Tickscope.Memory

open Tickscope.Lib

/-! ## The template argument -/

/-- The template argument `Capacity`: a `size_t` that the `static_assert`s admit. -/
structure Capacity where
  size : Nat
  size_lt : size < 2 ^ 64
  size_pos : 0 < size
  powerOfTwo : size &&& (size - 1) = 0

namespace Capacity

variable (C : Capacity)

/-- `MASK = Capacity - 1`. -/
def mask : BitVec 64 := BitVec.ofNat 64 (C.size - 1)

theorem toNat_mask : C.mask.toNat = C.size - 1 := by
  have lt := C.size_lt
  rw [mask, BitVec.toNat_ofNat, Nat.mod_eq_of_lt (by omega)]

/-- The slot index `pos & MASK`. -/
def slot (pos : BitVec 64) : Fin C.size :=
  ⟨(pos &&& C.mask).toNat, by
    have le : (pos &&& C.mask).toNat ≤ C.mask.toNat := by
      rw [BitVec.toNat_and]
      exact Nat.and_le_right
    have eq := C.toNat_mask
    have pos := C.size_pos
    omega⟩

end Capacity

/-! ## The data structure -/

structure Slot (α : Type) where
  sequence : BitVec 64
  data : α

structure RingBuffer (α : Type) (C : Capacity) where
  writeIndex : BitVec 64
  readIndex : BitVec 64
  slots : Fin C.size → Slot α

namespace RingBuffer

variable {α : Type} {C : Capacity}

/-- The constructor: every slot's sequence is its own index. The payloads are whatever the
storage held. -/
def new (data : Fin C.size → α) : RingBuffer α C where
  writeIndex := 0
  readIndex := 0
  slots := fun i => ⟨BitVec.ofNat 64 i, data i⟩

/-- `slots_[pos & MASK].sequence.load()`. -/
def loadSequence (ring : RingBuffer α C) (pos : BitVec 64) : BitVec 64 :=
  (ring.slots (C.slot pos)).sequence

/-- `slots_[pos & MASK].data`. -/
def loadData (ring : RingBuffer α C) (pos : BitVec 64) : α :=
  (ring.slots (C.slot pos)).data

/-- `slots_[pos & MASK].sequence.store(value)`. -/
def storeSequence (ring : RingBuffer α C) (pos value : BitVec 64) : RingBuffer α C :=
  { ring with
    slots := Function.update ring.slots (C.slot pos)
      { ring.slots (C.slot pos) with sequence := value } }

/-- `slots_[pos & MASK].data = item`. -/
def storeData (ring : RingBuffer α C) (pos : BitVec 64) (item : α) : RingBuffer α C :=
  { ring with
    slots := Function.update ring.slots (C.slot pos)
      { ring.slots (C.slot pos) with data := item } }

/-- `write_index_.fetch_add(1)`, without its result. -/
def advanceWrite (ring : RingBuffer α C) : RingBuffer α C :=
  { ring with writeIndex := ring.writeIndex + 1 }

/-- `++read_index_`. -/
def advanceRead (ring : RingBuffer α C) : RingBuffer α C :=
  { ring with readIndex := ring.readIndex + 1 }

/-- The readiness check of `consume`: the slot of `read_index_` holds `read_index_ + 1`. -/
def ready (ring : RingBuffer α C) : Bool :=
  ring.loadSequence ring.readIndex == ring.readIndex + 1

/-- `size_approx()`. -/
def sizeApprox (ring : RingBuffer α C) : BitVec 64 :=
  ring.writeIndex - ring.readIndex

end RingBuffer

/-! ## The threads -/

/-- The next atomic step of a producer thread. From `copy` on, `produce` and `try_produce` run
the same code. -/
inductive Producer (α : Type) where
  | idle
  /-- `produce`: `pos = write_index_.fetch_add(1)` -/
  | claim (item : α)
  /-- `produce`: `while (slot.sequence.load() != pos)` -/
  | spin (item : α) (pos : BitVec 64)
  /-- `try_produce`: `pos = write_index_.load()` -/
  | tryLoad (item : α)
  /-- `try_produce`: `if (slot.sequence.load() != pos) return false` -/
  | tryCheck (item : α) (pos : BitVec 64)
  /-- `try_produce`: `write_index_.fetch_add(1)` -/
  | tryClaim (item : α) (pos : BitVec 64)
  /-- `slot.data = item` -/
  | copy (item : α) (pos : BitVec 64)
  /-- `slot.sequence.store(pos + 1)` -/
  | publish (item : α) (pos : BitVec 64)
  /-- return to the caller; `produce` always accepts -/
  | done (accepted : Bool)

/-- The next atomic step of the consumer thread. -/
inductive Consumer (α : Type) where
  | idle
  /-- `if (slot.sequence.load() != read_index_ + 1) return false` -/
  | check
  /-- `out = slot.data` -/
  | copy
  /-- `slot.sequence.store(read_index_ + Capacity)` -/
  | release (out : α)
  /-- `++read_index_` -/
  | advance (out : α)
  /-- return to the caller, with the value consumed or with `false` -/
  | done (out : Option α)

/-- The producer threads, the consumer thread and the ring between them, with the logs. -/
structure System (ι α : Type) (C : Capacity) where
  ring : RingBuffer α C
  producers : ι → Producer α
  consumer : Consumer α
  calls : List (ι × α)
  claims : List (ι × α)
  returned : List α

/-- A thread calls one of the three functions, or takes the next step of the call it is in. -/
inductive Label (ι α : Type) where
  | produce (p : ι) (item : α)
  | tryProduce (p : ι) (item : α)
  | producer (p : ι)
  | consume
  | consumer

namespace System

variable {ι α : Type} {C : Capacity}

/-- A freshly constructed ring with no thread inside a call. -/
def new (data : Fin C.size → α) : System ι α C where
  ring := .new data
  producers := fun _ => .idle
  consumer := .idle
  calls := []
  claims := []
  returned := []

variable [DecidableEq ι]

def setProducer (s : System ι α C) (p : ι) (state : Producer α) : System ι α C :=
  { s with producers := Function.update s.producers p state }

/-- Producer `p` takes the next atomic step of its call. -/
def stepProducer (s : System ι α C) (p : ι) : Option (System ι α C) :=
  match s.producers p with
  | .idle => none
  | .claim item =>
      some { s.setProducer p (.spin item s.ring.writeIndex) with
        ring := s.ring.advanceWrite
        claims := s.claims ++ [(p, item)] }
  | .spin item pos =>
      if s.ring.loadSequence pos = pos then some (s.setProducer p (.copy item pos)) else some s
  | .tryLoad item => some (s.setProducer p (.tryCheck item s.ring.writeIndex))
  | .tryCheck item pos =>
      if s.ring.loadSequence pos = pos then some (s.setProducer p (.tryClaim item pos))
      else some (s.setProducer p (.done false))
  | .tryClaim item pos =>
      some { s.setProducer p (.copy item pos) with
        ring := s.ring.advanceWrite
        claims := s.claims ++ [(p, item)] }
  | .copy item pos =>
      some { s.setProducer p (.publish item pos) with ring := s.ring.storeData pos item }
  | .publish _ pos =>
      some { s.setProducer p (.done true) with ring := s.ring.storeSequence pos (pos + 1) }
  | .done _ => some (s.setProducer p .idle)

omit [DecidableEq ι] in
/-- The consumer takes the next atomic step of `consume`. -/
def stepConsumer (s : System ι α C) : Option (System ι α C) :=
  match s.consumer with
  | .idle => none
  | .check => some { s with consumer := if s.ring.ready then .copy else .done none }
  | .copy => some { s with consumer := .release (s.ring.loadData s.ring.readIndex) }
  | .release out =>
      some { s with
        ring := s.ring.storeSequence s.ring.readIndex
          (s.ring.readIndex + BitVec.ofNat 64 C.size)
        consumer := .advance out }
  | .advance out => some { s with ring := s.ring.advanceRead, consumer := .done (some out) }
  | .done out => some { s with consumer := .idle, returned := s.returned ++ out.toList }

/-- One step of the interleaving. -/
def step (s : System ι α C) : Label ι α → Option (System ι α C)
  | .produce p item =>
      match s.producers p with
      | .idle => some { s.setProducer p (.claim item) with calls := s.calls ++ [(p, item)] }
      | _ => none
  | .tryProduce p item =>
      match s.producers p with
      | .idle => some { s.setProducer p (.tryLoad item) with calls := s.calls ++ [(p, item)] }
      | _ => none
  | .producer p => s.stepProducer p
  | .consume =>
      match s.consumer with
      | .idle => some { s with consumer := .check }
      | _ => none
  | .consumer => s.stepConsumer

/-- The interleavings of the producer threads `ι` with the consumer. -/
def machine (ι α : Type) (C : Capacity) [DecidableEq ι] : Machine (System ι α C) (Label ι α) :=
  ⟨step⟩

/-! ## What a step does -/

/-- All that a step of producer `p` inside a call can do. -/
inductive Produces (s : System ι α C) (p : ι) : System ι α C → Prop
  | claim {item : α} :
    s.producers p = .claim item →
    Produces s p { s.setProducer p (.spin item s.ring.writeIndex) with
      ring := s.ring.advanceWrite
      claims := s.claims ++ [(p, item)] }
  | wait {item : α} {pos : BitVec 64} :
    s.producers p = .spin item pos → s.ring.loadSequence pos ≠ pos → Produces s p s
  | enter {item : α} {pos : BitVec 64} :
    s.producers p = .spin item pos → s.ring.loadSequence pos = pos →
    Produces s p (s.setProducer p (.copy item pos))
  | tryLoad {item : α} :
    s.producers p = .tryLoad item →
    Produces s p (s.setProducer p (.tryCheck item s.ring.writeIndex))
  | free {item : α} {pos : BitVec 64} :
    s.producers p = .tryCheck item pos → s.ring.loadSequence pos = pos →
    Produces s p (s.setProducer p (.tryClaim item pos))
  | full {item : α} {pos : BitVec 64} :
    s.producers p = .tryCheck item pos → s.ring.loadSequence pos ≠ pos →
    Produces s p (s.setProducer p (.done false))
  | tryClaim {item : α} {pos : BitVec 64} :
    s.producers p = .tryClaim item pos →
    Produces s p { s.setProducer p (.copy item pos) with
      ring := s.ring.advanceWrite
      claims := s.claims ++ [(p, item)] }
  | copy {item : α} {pos : BitVec 64} :
    s.producers p = .copy item pos →
    Produces s p { s.setProducer p (.publish item pos) with ring := s.ring.storeData pos item }
  | publish {item : α} {pos : BitVec 64} :
    s.producers p = .publish item pos →
    Produces s p { s.setProducer p (.done true) with ring := s.ring.storeSequence pos (pos + 1) }
  | done {accepted : Bool} :
    s.producers p = .done accepted → Produces s p (s.setProducer p .idle)

theorem produces_of_stepProducer {s s' : System ι α C} {p : ι}
    (step : s.stepProducer p = some s') : s.Produces p s' := by
  unfold stepProducer at step
  cases state : s.producers p with
  | idle =>
      rw [state] at step
      cases step
  | claim item =>
      rw [state] at step
      cases step
      exact .claim state
  | spin item pos =>
      rw [state] at step
      dsimp only at step
      split at step <;> cases step
      · exact .enter state ‹_›
      · exact .wait state ‹_›
  | tryLoad item =>
      rw [state] at step
      cases step
      exact .tryLoad state
  | tryCheck item pos =>
      rw [state] at step
      dsimp only at step
      split at step <;> cases step
      · exact .free state ‹_›
      · exact .full state ‹_›
  | tryClaim item pos =>
      rw [state] at step
      cases step
      exact .tryClaim state
  | copy item pos =>
      rw [state] at step
      cases step
      exact .copy state
  | publish item pos =>
      rw [state] at step
      cases step
      exact .publish state
  | done accepted =>
      rw [state] at step
      cases step
      exact .done state

/-- All that a step of the consumer inside `consume` can do. -/
inductive Consumes (s : System ι α C) : System ι α C → Prop
  | found :
    s.consumer = .check → s.ring.ready = true → Consumes s { s with consumer := .copy }
  | nothing :
    s.consumer = .check → s.ring.ready = false → Consumes s { s with consumer := .done none }
  | copy :
    s.consumer = .copy →
    Consumes s { s with consumer := .release (s.ring.loadData s.ring.readIndex) }
  | release {out : α} :
    s.consumer = .release out →
    Consumes s
      { s with
        ring := s.ring.storeSequence s.ring.readIndex
          (s.ring.readIndex + BitVec.ofNat 64 C.size)
        consumer := .advance out }
  | advance {out : α} :
    s.consumer = .advance out →
    Consumes s { s with ring := s.ring.advanceRead, consumer := .done (some out) }
  | done {out : Option α} :
    s.consumer = .done out →
    Consumes s { s with consumer := .idle, returned := s.returned ++ out.toList }

omit [DecidableEq ι] in
theorem consumes_of_stepConsumer {s s' : System ι α C} (step : s.stepConsumer = some s') :
    s.Consumes s' := by
  unfold stepConsumer at step
  cases state : s.consumer with
  | idle =>
      rw [state] at step
      cases step
  | check =>
      rw [state] at step
      cases loaded : s.ring.ready with
      | false =>
          rw [loaded] at step
          cases step
          exact .nothing state loaded
      | true =>
          rw [loaded] at step
          cases step
          exact .found state loaded
  | copy =>
      rw [state] at step
      cases step
      exact .copy state
  | release out =>
      rw [state] at step
      cases step
      exact .release state
  | advance out =>
      rw [state] at step
      cases step
      exact .advance state
  | done out =>
      rw [state] at step
      cases step
      exact .done state

end System

end Tickscope.Memory
