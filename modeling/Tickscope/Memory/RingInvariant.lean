import Mathlib.Data.Fintype.Card
import Mathlib.Data.Fintype.Option
import Mathlib.Order.Interval.Finset.Nat
import Tickscope.Memory.RingPositions

/-!
# The invariant of the ring buffer

A claimed position is *pending* while the thread that claimed it is still inside
the call (`System.Pending`) and *published* afterwards. `System.Inv` says that the
slots are laid out accordingly (`RingBuffer.Layout`), that every producer inside a
call holds its own most recent claim, and that the consumer reads the positions in
order. `System.keeps_inv` proves it of every step of every interleaving, for
producers that use `produce` and for a single producer that uses `try_produce`.

A waiting producer compares wrapped positions, so the argument needs that no two
positions in use are `2 ^ 64` apart. `Inv.claims_length_le` bounds them: the
claims ahead of the window are held by distinct threads.
-/

namespace Tickscope.Memory

open Tickscope.Lib RingBuffer

theorem concat_isPrefix {α : Type} {xs ys : List α} {y : α} (isPrefix : xs <+: ys)
    (next : ys[xs.length]? = some y) : xs ++ [y] <+: ys := by
  obtain ⟨rest, rfl⟩ := isPrefix
  rw [List.getElem?_append_right (Nat.le_refl _), Nat.sub_self] at next
  cases rest with
  | nil => cases next
  | cons z rest =>
      cases next
      exact ⟨rest, List.append_assoc ..⟩

/-! ## Positions held by the threads -/

/-- The thread has claimed a position and not yet published it. -/
def Producer.inFlight {α : Type} : Producer α → Bool
  | .spin .. => true
  | .copy .. => true
  | .publish .. => true
  | _ => false

/-- Values read by `++read_index_` that the call has not returned yet. -/
def Consumer.reads {α : Type} : Consumer α → Nat
  | .done (some _) => 1
  | _ => 0

/-- Slots freed for values that the call has not returned yet. -/
def Consumer.frees {α : Type} : Consumer α → Nat
  | .advance _ => 1
  | .done (some _) => 1
  | _ => 0

namespace System

variable {ι α : Type} {C : Capacity}

/-- The number of positions whose slot the consumer has freed. -/
def freed (s : System ι α C) : Nat := s.returned.length + s.consumer.frees

/-- Position `q` is the most recent claim of `p`, made for `item`. -/
def HoldsClaim (s : System ι α C) (p : ι) (item : α) (q : Nat) : Prop :=
  s.claims[q]? = some (p, item) ∧ ∀ r x, q < r → s.claims[r]? ≠ some (p, x)

/-- The thread that claimed position `q` is still inside that call. -/
def Pending (s : System ι α C) (q : Nat) : Prop :=
  ∃ p item, s.HoldsClaim p item q ∧ (s.producers p).inFlight = true

/-- Position `q` has been claimed and its payload published. -/
def Published (s : System ι α C) (q : Nat) : Prop :=
  q < s.claims.length ∧ ¬ s.Pending q

theorem HoldsClaim.lt {s : System ι α C} {p : ι} {item : α} {q : Nat}
    (holds : s.HoldsClaim p item q) : q < s.claims.length :=
  (List.getElem?_eq_some_iff.mp holds.1).1

/-- A thread has one most recent claim. -/
theorem HoldsClaim.unique {s : System ι α C} {p : ι} {x y : α} {q r : Nat}
    (hq : s.HoldsClaim p x q) (hr : s.HoldsClaim p y r) : q = r := by
  rcases Nat.lt_trichotomy q r with lt | eq | lt
  · exact (hq.2 r y lt hr.1).elim
  · exact eq
  · exact (hr.2 q x lt hq.1).elim

theorem holdsClaim_congr {s s' : System ι α C} (claims : s'.claims = s.claims) {p : ι} {item : α}
    {q : Nat} : s'.HoldsClaim p item q ↔ s.HoldsClaim p item q := by
  rw [HoldsClaim, HoldsClaim, claims]

theorem published_congr {s s' : System ι α C} (claims : s'.claims = s.claims)
    (inFlight : ∀ p, (s'.producers p).inFlight = (s.producers p).inFlight) (q : Nat) :
    s'.Published q ↔ s.Published q := by
  simp only [Published, Pending, claims, holdsClaim_congr claims, inFlight]

/-- The claim of the last position of the log. -/
theorem holdsClaim_last {s s' : System ι α C} {p : ι} {item : α}
    (claims : s'.claims = s.claims ++ [(p, item)]) : s'.HoldsClaim p item s.claims.length := by
  constructor
  · rw [claims, List.getElem?_concat_length]
  · intro r x lt
    rw [claims, List.getElem?_eq_none (by rw [List.length_append, List.length_singleton]; omega)]
    exact nofun

/-- A claim by `p` leaves the claims of the others where they are. -/
theorem holdsClaim_append {s s' : System ι α C} {p p' : ι} {item x : α} {q : Nat}
    (claims : s'.claims = s.claims ++ [(p, item)]) (ne : p' ≠ p) :
    s'.HoldsClaim p' x q ↔ s.HoldsClaim p' x q := by
  have lookup : ∀ (r : Nat) (y : α), s'.claims[r]? = some (p', y) ↔ s.claims[r]? = some (p', y) := by
    intro r y
    rw [claims]
    rcases Nat.lt_trichotomy r s.claims.length with lt | rfl | lt
    · rw [List.getElem?_append_left lt]
    · rw [List.getElem?_concat_length, List.getElem?_eq_none (Nat.le_refl _)]
      refine ⟨fun eq => ?_, nofun⟩
      cases eq
      exact (ne rfl).elim
    · rw [List.getElem?_eq_none (by rw [List.length_append, List.length_singleton]; omega),
        List.getElem?_eq_none lt.le]
  simp only [HoldsClaim, ne_eq, lookup]

/-! ## The invariant -/

/-- What holds of producer `p` before each of its steps. The steps of `try_produce` are taken
by the only producer. -/
def ProducerInv (s : System ι α C) (p : ι) : Producer α → Prop
  | .spin item pos => ∃ q, s.HoldsClaim p item q ∧ pos = BitVec.ofNat 64 q ∧ s.freed ≤ q
  | .tryLoad _ => ∀ p', p' = p
  | .tryCheck _ pos => (∀ p', p' = p) ∧ pos = BitVec.ofNat 64 s.claims.length
  | .tryClaim _ pos =>
      (∀ p', p' = p) ∧ pos = BitVec.ofNat 64 s.claims.length ∧ s.claims.length < s.freed + C.size
  | .copy item pos =>
      ∃ q, s.HoldsClaim p item q ∧ pos = BitVec.ofNat 64 q ∧ s.freed ≤ q ∧ q < s.freed + C.size
  | .publish item pos =>
      ∃ q, s.HoldsClaim p item q ∧ pos = BitVec.ofNat 64 q ∧ s.freed ≤ q ∧
        q < s.freed + C.size ∧ (s.ring.slots (C.cell q)).data = item
  | _ => True

/-- What holds of the consumer before each of its steps. -/
def ConsumerInv (s : System ι α C) : Consumer α → Prop
  | .copy => s.Published s.returned.length
  | .release out =>
      s.Published s.returned.length ∧ ∃ p, s.claims[s.returned.length]? = some (p, out)
  | .advance out => ∃ p, s.claims[s.returned.length]? = some (p, out)
  | .done (some out) => ∃ p, s.claims[s.returned.length]? = some (p, out)
  | _ => True

structure Inv (s : System ι α C) : Prop where
  layout : s.ring.Layout s.claims s.freed s.Published
  read : s.ring.readIndex = BitVec.ofNat 64 (s.returned.length + s.consumer.reads)
  producers : ∀ p, s.ProducerInv p (s.producers p)
  consumer : s.ConsumerInv s.consumer
  returned : s.returned <+: s.claims.map Prod.snd

theorem new_inv (data : Fin C.size → α) : (System.new data : System ι α C).Inv where
  layout := (Layout.new data).congr fun _ => ⟨fun pub => (Nat.not_lt_zero _ pub.1).elim, nofun⟩
  read := rfl
  producers := fun _ => True.intro
  consumer := True.intro
  returned := List.nil_prefix

/-- A producer inside a call holds a claim that the consumer has not freed. -/
theorem Inv.holdsClaim {s : System ι α C} (inv : s.Inv) {p : ι}
    (inFlight : (s.producers p).inFlight = true) :
    ∃ item q, s.HoldsClaim p item q ∧ s.freed ≤ q := by
  have own := inv.producers p
  cases state : s.producers p with
  | idle | claim | tryLoad | tryCheck | tryClaim | done => rw [state] at inFlight; cases inFlight
  | spin item pos =>
      rw [state] at own
      obtain ⟨q, holds, -, le⟩ := own
      exact ⟨item, q, holds, le⟩
  | copy item pos | publish item pos =>
      rw [state] at own
      obtain ⟨q, holds, -, le, -⟩ := own
      exact ⟨item, q, holds, le⟩

/-- The claims ahead of the window are held by distinct threads. -/
theorem Inv.claims_length_le [Fintype ι] {s : System ι α C} (inv : s.Inv) :
    s.claims.length ≤ s.freed + C.size + Fintype.card ι := by
  classical
  let ahead := Finset.Ico (s.freed + C.size) s.claims.length
  have pending : ∀ q ∈ ahead, s.Pending q := by
    intro q mem
    obtain ⟨le, lt⟩ := Finset.mem_Ico.mp mem
    by_contra settled
    exact Nat.not_lt.mpr le (inv.layout.near q ⟨lt, settled⟩)
  let claimant := fun q : Nat => (s.claims[q]?).map Prod.fst
  let threads : Finset (Option ι) := Finset.univ.map Function.Embedding.some
  have maps : Set.MapsTo claimant ahead threads := by
    intro q mem
    obtain ⟨p, item, holds, -⟩ := pending q mem
    have eq : claimant q = some p := by
      show (s.claims[q]?).map Prod.fst = some p
      rw [holds.1]
      rfl
    rw [eq]
    exact Finset.mem_map_of_mem _ (Finset.mem_univ p)
  have inj : Set.InjOn claimant ahead := by
    intro q hq r hr eq
    obtain ⟨p, x, holds, -⟩ := pending q hq
    obtain ⟨p', y, holds', -⟩ := pending r hr
    have same : (s.claims[q]?).map Prod.fst = (s.claims[r]?).map Prod.fst := eq
    rw [holds.1, holds'.1] at same
    cases Option.some.inj same
    exact holds.unique holds'
  have card := Finset.card_le_card_of_injOn claimant maps inj
  rw [Nat.card_Ico, Finset.card_map, Finset.card_univ] at card
  omega

/-! ## Steps that write nothing -/

variable [DecidableEq ι]

@[simp] theorem setProducer_self (s : System ι α C) (p : ι) (state : Producer α) :
    (s.setProducer p state).producers p = state := Function.update_self ..

theorem setProducer_of_ne (s : System ι α C) {p p' : ι} (state : Producer α) (ne : p' ≠ p) :
    (s.setProducer p state).producers p' = s.producers p' := Function.update_of_ne ne ..

omit [DecidableEq ι] in
/-- What a producer knows survives a step that keeps the claims, the window and the payload it
has stored. -/
theorem ProducerInv.frame {s s' : System ι α C} {p : ι} {state : Producer α}
    (own : s.ProducerInv p state) (claims : s'.claims = s.claims) (freed : s'.freed = s.freed)
    (data : ∀ item pos q, state = .publish item pos → s.HoldsClaim p item q →
      s.freed ≤ q → q < s.freed + C.size →
      (s'.ring.slots (C.cell q)).data = (s.ring.slots (C.cell q)).data) :
    s'.ProducerInv p state := by
  cases state with
  | idle | claim | done => exact True.intro
  | tryLoad => exact own
  | spin | tryCheck | tryClaim | copy =>
      simpa only [ProducerInv, holdsClaim_congr claims, claims, freed] using own
  | publish item pos =>
      obtain ⟨q, holds, eq, le, lt, stored⟩ := own
      refine ⟨q, (holdsClaim_congr claims).mpr holds, eq, freed ▸ le, freed ▸ lt, ?_⟩
      rw [data item pos q rfl holds le lt, stored]

omit [DecidableEq ι] in
/-- What the consumer knows survives a step that keeps published positions published. -/
theorem ConsumerInv.frame {s s' : System ι α C} {state : Consumer α} (own : s.ConsumerInv state)
    (returned : s'.returned = s.returned)
    (claims : ∀ (q : Nat) (p : ι) (x : α),
      s.claims[q]? = some (p, x) → s'.claims[q]? = some (p, x))
    (published : ∀ q, s.Published q → s'.Published q) : s'.ConsumerInv state := by
  cases state with
  | idle | check => exact True.intro
  | copy =>
      show s'.Published s'.returned.length
      rw [returned]
      exact published _ own
  | release out =>
      obtain ⟨pub, p, claimed⟩ := own
      exact ⟨returned ▸ published _ pub, p, returned ▸ claims _ p out claimed⟩
  | advance out =>
      obtain ⟨p, claimed⟩ := own
      exact ⟨p, returned ▸ claims _ p out claimed⟩
  | done out =>
      cases out with
      | none => exact True.intro
      | some out =>
          obtain ⟨p, claimed⟩ := own
          exact ⟨p, returned ▸ claims _ p out claimed⟩

omit [DecidableEq ι] in
/-- A producer moves without writing to the ring or to the claims. -/
theorem Inv.quiet {s s' : System ι α C} (inv : s.Inv) (p : ι) (ring : s'.ring = s.ring)
    (claims : s'.claims = s.claims) (consumer : s'.consumer = s.consumer)
    (returned : s'.returned = s.returned)
    (others : ∀ p', p' ≠ p → s'.producers p' = s.producers p')
    (inFlight : (s'.producers p).inFlight = (s.producers p).inFlight)
    (own : s.ProducerInv p (s'.producers p)) : s'.Inv := by
  have flights : ∀ p', (s'.producers p').inFlight = (s.producers p').inFlight := by
    intro p'
    by_cases same : p' = p
    · exact same ▸ inFlight
    · rw [others p' same]
  have freed : s'.freed = s.freed := by rw [System.freed, System.freed, returned, consumer]
  have published := published_congr claims flights
  constructor
  · rw [ring, claims, freed]
    exact inv.layout.congr published
  · rw [ring, returned, consumer]
    exact inv.read
  · intro p'
    by_cases same : p' = p
    · subst same
      exact own.frame claims freed fun _ _ _ _ _ _ _ => by rw [ring]
    · rw [others p' same]
      exact (inv.producers p').frame claims freed fun _ _ _ _ _ _ _ => by rw [ring]
  · rw [consumer]
    exact ConsumerInv.frame inv.consumer returned (fun q p' x claimed => by rw [claims]; exact claimed)
      fun q => (published q).mpr
  · rw [returned, claims]
    exact inv.returned

omit [DecidableEq ι] in
/-- The consumer moves without writing to the ring. -/
theorem Inv.quietConsumer {s s' : System ι α C} (inv : s.Inv) (ring : s'.ring = s.ring)
    (claims : s'.claims = s.claims) (producers : s'.producers = s.producers)
    (returned : s'.returned <+: s'.claims.map Prod.snd) (freed : s'.freed = s.freed)
    (read : s'.returned.length + s'.consumer.reads = s.returned.length + s.consumer.reads)
    (own : s'.ConsumerInv s'.consumer) : s'.Inv := by
  have published := published_congr claims fun p => by rw [producers]
  constructor
  · rw [ring, claims, freed]
    exact inv.layout.congr published
  · rw [ring, read]
    exact inv.read
  · intro p
    rw [producers]
    exact (inv.producers p).frame claims freed fun _ _ _ _ _ _ _ => by rw [ring]
  · exact own
  · exact returned

/-! ## Steps that write -/

/-- A thread outside a call claims the next position. -/
theorem Inv.claim {s : System ι α C} (inv : s.Inv) {p : ι} {item : α} {state : Producer α}
    (outside : (s.producers p).inFlight = false) (inside : state.inFlight = true)
    (single : ∀ p', p' ≠ p → s.ProducerInv p' (s.producers p') →
      ({ s.setProducer p state with
        ring := s.ring.advanceWrite
        claims := s.claims ++ [(p, item)] } : System ι α C).ProducerInv p' (s.producers p'))
    (own : ({ s.setProducer p state with
        ring := s.ring.advanceWrite
        claims := s.claims ++ [(p, item)] } : System ι α C).ProducerInv p state) :
    ({ s.setProducer p state with
        ring := s.ring.advanceWrite
        claims := s.claims ++ [(p, item)] } : System ι α C).Inv := by
  generalize after : ({ s.setProducer p state with
        ring := s.ring.advanceWrite
        claims := s.claims ++ [(p, item)] } : System ι α C) = s' at single own ⊢
  have claims : s'.claims = s.claims ++ [(p, item)] := by rw [← after]
  have self : s'.producers p = state := by rw [← after]; exact Function.update_self ..
  have others : ∀ p', p' ≠ p → s'.producers p' = s.producers p' := fun p' ne => by
    rw [← after]
    exact Function.update_of_ne ne ..
  have published : ∀ q, s'.Published q ↔ s.Published q := by
    intro q
    rw [Published, Published, claims, List.length_append, List.length_singleton]
    constructor
    · intro isPublished
      rcases isPublished with ⟨lt, settled⟩
      have ne : q ≠ s.claims.length := by
        intro same
        subst same
        exact settled ⟨p, item, holdsClaim_last claims, self ▸ inside⟩
      refine ⟨by omega, fun ⟨p', x, holds, flight⟩ => ?_⟩
      have ne' : p' ≠ p := by
        intro same
        subst same
        rw [outside] at flight
        cases flight
      exact settled ⟨p', x, (holdsClaim_append claims ne').mpr holds, others p' ne' ▸ flight⟩
    · intro isPublished
      rcases isPublished with ⟨lt, settled⟩
      refine ⟨by omega, fun ⟨p', x, holds, flight⟩ => ?_⟩
      by_cases same : p' = p
      · subst same
        have := holds.unique (holdsClaim_last claims)
        omega
      · exact settled ⟨p', x, (holdsClaim_append claims same).mp holds, others p' same ▸ flight⟩
  constructor
  · have layout := (inv.layout.claim (p, item)).congr published
    rw [← after] at layout ⊢
    exact layout
  · rw [← after]
    exact inv.read
  · intro p'
    by_cases same : p' = p
    · rw [same, self]
      exact own
    · rw [others p' same]
      exact single p' same (inv.producers p')
  · have consumer : s'.consumer = s.consumer := by rw [← after]; rfl
    rw [consumer]
    refine ConsumerInv.frame inv.consumer (by rw [← after]; rfl) (fun q p' x claimed => ?_)
      fun q => (published q).mpr
    rw [claims, List.getElem?_append_left (List.getElem?_eq_some_iff.mp claimed).1]
    exact claimed
  · have returned : s'.returned = s.returned := by rw [← after]; rfl
    rw [returned, claims, List.map_append]
    exact inv.returned.trans (List.prefix_append ..)

/-- A producer copies its payload into the slot it owns. -/
theorem Inv.copy {s : System ι α C} (inv : s.Inv) {p : ι} {item : α} {pos : BitVec 64}
    (state : s.producers p = .copy item pos) :
    ({ s.setProducer p (.publish item pos) with
        ring := s.ring.storeData pos item } : System ι α C).Inv := by
  generalize after : ({ s.setProducer p (.publish item pos) with
        ring := s.ring.storeData pos item } : System ι α C) = s'
  have own := inv.producers p
  rw [state] at own
  obtain ⟨q, holds, rfl, le, lt⟩ := own
  have self : s'.producers p = .publish item (BitVec.ofNat 64 q) := by
    rw [← after]; exact Function.update_self ..
  have others : ∀ p', p' ≠ p → s'.producers p' = s.producers p' := fun p' ne => by
    rw [← after]
    exact Function.update_of_ne ne ..
  have flights : ∀ p', (s'.producers p').inFlight = (s.producers p').inFlight := by
    intro p'
    by_cases same : p' = p
    · rw [same, self, state]; rfl
    · rw [others p' same]
  have claims : s'.claims = s.claims := by rw [← after]; rfl
  have freed : s'.freed = s.freed := by rw [← after]; rfl
  have published := published_congr claims flights
  have unpublished : ¬ s.Published q := fun pub =>
    pub.2 ⟨p, item, holds, by rw [state]; rfl⟩
  have slots : s'.ring = s.ring.storeData (BitVec.ofNat 64 q) item := by rw [← after]
  constructor
  · have layout := (inv.layout.storeData le lt unpublished item).congr published
    rw [claims, freed, slots]
    exact layout
  · rw [← after]
    exact inv.read
  · intro p'
    by_cases same : p' = p
    · subst same
      rw [self]
      refine ⟨q, (holdsClaim_congr claims).mpr holds, rfl, freed ▸ le, freed ▸ lt, ?_⟩
      rw [slots, slots_storeData_self]
    · rw [others p' same]
      refine (inv.producers p').frame claims freed fun x pos' r _ holds' le' lt' => ?_
      have ne : r ≠ q := by
        intro same
        subst same
        exact same (congrArg Prod.fst (Option.some.inj (holds'.1.symm.trans holds.1)))
      rw [slots, slots_storeData_of_ne item (C.cell_ne ne le' lt' le lt)]
  · have consumer : s'.consumer = s.consumer := by rw [← after]; rfl
    rw [consumer]
    exact ConsumerInv.frame inv.consumer (by rw [← after]; rfl)
      (fun r p' x claimed => by rw [claims]; exact claimed) fun r => (published r).mpr
  · rw [← after]
    exact inv.returned

/-- A producer publishes the position it holds. -/
theorem Inv.publish {s : System ι α C} (inv : s.Inv) {p : ι} {item : α} {pos : BitVec 64}
    (state : s.producers p = .publish item pos) :
    ({ s.setProducer p (.done true) with
        ring := s.ring.storeSequence pos (pos + 1) } : System ι α C).Inv := by
  generalize after : ({ s.setProducer p (.done true) with
        ring := s.ring.storeSequence pos (pos + 1) } : System ι α C) = s'
  have own := inv.producers p
  rw [state] at own
  obtain ⟨q, holds, rfl, le, lt, stored⟩ := own
  have self : s'.producers p = .done true := by rw [← after]; exact Function.update_self ..
  have others : ∀ p', p' ≠ p → s'.producers p' = s.producers p' := fun p' ne => by
    rw [← after]
    exact Function.update_of_ne ne ..
  have claims : s'.claims = s.claims := by rw [← after]; rfl
  have freed : s'.freed = s.freed := by rw [← after]; rfl
  have slots : s'.ring =
      s.ring.storeSequence (BitVec.ofNat 64 q) (BitVec.ofNat 64 q + 1) := by rw [← after]
  have published : ∀ r, s'.Published r ↔ s.Published r ∨ r = q := by
    intro r
    rw [Published, Published, claims]
    constructor
    · intro isPublished
      rcases isPublished with ⟨lt', settled⟩
      by_cases same : r = q
      · exact Or.inr same
      · refine Or.inl ⟨lt', fun ⟨p', x, holds', flight⟩ => ?_⟩
        have ne : p' ≠ p := by
          intro same
          subst same
          exact same (holds'.unique holds)
        exact settled ⟨p', x, (holdsClaim_congr claims).mpr holds', others p' ne ▸ flight⟩
    · intro pub
      refine ⟨?_, fun ⟨p', x, holds', flight⟩ => ?_⟩
      · rcases pub with pub | rfl
        · exact pub.1
        · exact holds.lt
      · have ne : p' ≠ p := by
          intro same
          subst same
          rw [self] at flight
          cases flight
        have holds' := (holdsClaim_congr claims).mp holds'
        rcases pub with pub | rfl
        · exact pub.2 ⟨p', x, holds', others p' ne ▸ flight⟩
        · exact ne (congrArg Prod.fst (Option.some.inj (holds'.1.symm.trans holds.1)))
  constructor
  · have layout := (inv.layout.publish le lt holds.1 stored).congr published
    rw [claims, freed, slots]
    exact layout
  · rw [← after]
    exact inv.read
  · intro p'
    by_cases same : p' = p
    · rw [same, self]
      exact True.intro
    · rw [others p' same]
      refine (inv.producers p').frame claims freed fun x pos' r _ holds' le' lt' => ?_
      have ne : r ≠ q := by
        intro same
        subst same
        exact same (congrArg Prod.fst (Option.some.inj (holds'.1.symm.trans holds.1)))
      rw [slots, slots_storeSequence_of_ne _ (C.cell_ne ne le' lt' le lt)]
  · have consumer : s'.consumer = s.consumer := by rw [← after]; rfl
    rw [consumer]
    exact ConsumerInv.frame inv.consumer (by rw [← after]; rfl)
      (fun r p' x claimed => by rw [claims]; exact claimed) fun r pub => (published r).mpr (.inl pub)
  · rw [← after]
    exact inv.returned

omit [DecidableEq ι] in
/-- The consumer frees the slot it has copied. -/
theorem Inv.release {s : System ι α C} (inv : s.Inv) {out : α}
    (state : s.consumer = .release out) :
    ({ s with
        ring := s.ring.storeSequence s.ring.readIndex
          (s.ring.readIndex + BitVec.ofNat 64 C.size)
        consumer := .advance out } : System ι α C).Inv := by
  have own := inv.consumer
  have read := inv.read
  rw [state] at own read
  obtain ⟨pub, p, claimed⟩ := own
  have freed : s.freed = s.returned.length := by rw [System.freed, state]; rfl
  have read : s.ring.readIndex = BitVec.ofNat 64 s.freed := by rw [freed]; exact read
  have published : ∀ q, ({ s with
      ring := s.ring.storeSequence s.ring.readIndex (s.ring.readIndex + BitVec.ofNat 64 C.size)
      consumer := .advance out } : System ι α C).Published q ↔ s.Published q :=
    published_congr rfl fun _ => rfl
  have after : ({ s with
      ring := s.ring.storeSequence s.ring.readIndex (s.ring.readIndex + BitVec.ofNat 64 C.size)
      consumer := .advance out } : System ι α C).freed = s.freed + 1 := by rw [freed]; rfl
  -- a pending position is not the published one that is freed
  have later : ∀ p' x q, s.HoldsClaim p' x q → (s.producers p').inFlight = true →
      s.freed ≤ q → s.freed + 1 ≤ q := by
    intro p' x q holds flight le
    refine Nat.lt_of_le_of_ne le fun same => ?_
    rw [← freed] at pub
    exact pub.2 ⟨p', x, same ▸ holds, flight⟩
  constructor
  · rw [after]
    have layout := (inv.layout.release (freed ▸ pub)).congr published
    rw [← read] at layout
    exact layout
  · exact inv.read.trans (by rw [state]; rfl)
  · intro p'
    have own := inv.producers p'
    show System.ProducerInv _ p' (s.producers p')
    cases moved : s.producers p' with
    | idle | claim | done => exact True.intro
    | tryLoad => rw [moved] at own; exact own
    | tryCheck => rw [moved] at own; exact own
    | tryClaim =>
        rw [moved] at own
        obtain ⟨single, eq, lt⟩ := own
        exact ⟨single, eq, by rw [after]; exact Nat.lt_trans lt (by omega)⟩
    | spin item pos =>
        rw [moved] at own
        obtain ⟨q, holds, eq, le⟩ := own
        exact ⟨q, holds, eq, after ▸ later p' item q holds (by rw [moved]; rfl) le⟩
    | copy item pos =>
        rw [moved] at own
        obtain ⟨q, holds, eq, le, lt⟩ := own
        exact ⟨q, holds, eq, after ▸ later p' item q holds (by rw [moved]; rfl) le,
          by rw [after]; omega⟩
    | publish item pos =>
        rw [moved] at own
        obtain ⟨q, holds, eq, le, lt, stored⟩ := own
        have le' := later p' item q holds (by rw [moved]; rfl) le
        refine ⟨q, holds, eq, after ▸ le', by rw [after]; omega, ?_⟩
        have ne : C.cell q ≠ C.cell s.freed :=
          C.cell_ne (by omega) le lt (Nat.le_refl s.freed) (by omega)
        show ((s.ring.storeSequence s.ring.readIndex _).slots (C.cell q)).data = item
        rw [read, slots_storeSequence_of_ne _ ne, stored]
  · exact ⟨p, claimed⟩
  · exact inv.returned

/-! ## Every interleaving -/

omit [DecidableEq ι] in
/-- No two positions in use are `2 ^ 64` apart. -/
theorem Inv.close [Fintype ι] {s : System ι α C} (inv : s.Inv)
    (few : C.size + Fintype.card ι < 2 ^ 64) {q : Nat} (le : q ≤ s.claims.length) :
    q - s.freed < 2 ^ 64 := by
  have bound := inv.claims_length_le
  omega

omit [DecidableEq ι] in
/-- What the other producers know survives a claim by `p`. -/
theorem ProducerInv.append {s s' : System ι α C} {p p' : ι} {item : α} {state : Producer α}
    (own : s.ProducerInv p' state) (ne : p' ≠ p) (claims : s'.claims = s.claims ++ [(p, item)])
    (freed : s'.freed = s.freed) (slots : s'.ring.slots = s.ring.slots) :
    s'.ProducerInv p' state := by
  cases state with
  | idle | claim | done => exact True.intro
  | tryLoad => exact (ne (own p).symm).elim
  | tryCheck | tryClaim => exact (ne (own.1 p).symm).elim
  | spin | copy | publish =>
      simpa only [ProducerInv, holdsClaim_append claims ne, freed, slots] using own

/-- `fetch_add` by a thread that holds no position, before the state it moves to. -/
theorem Inv.fetchAdd {s : System ι α C} (inv : s.Inv) {p : ι} {item : α} {state : Producer α}
    (outside : (s.producers p).inFlight = false)
    (next : state = .spin item (BitVec.ofNat 64 s.claims.length) ∨
      state = .copy item (BitVec.ofNat 64 s.claims.length) ∧
        s.claims.length < s.freed + C.size) :
    ({ s.setProducer p state with
        ring := s.ring.advanceWrite
        claims := s.claims ++ [(p, item)] } : System ι α C).Inv := by
  have last : ({ s.setProducer p state with
      ring := s.ring.advanceWrite
      claims := s.claims ++ [(p, item)] } : System ι α C).HoldsClaim p item s.claims.length :=
    holdsClaim_last rfl
  refine inv.claim outside ?_ (fun p' ne own => own.append ne rfl rfl rfl) ?_
  · rcases next with rfl | ⟨rfl, -⟩ <;> rfl
  · rcases next with rfl | ⟨rfl, lt⟩
    · exact ⟨_, last, rfl, inv.layout.freed_le⟩
    · exact ⟨_, last, rfl, inv.layout.freed_le, lt⟩

/-- Producer `p` goes on without writing to the ring or to the claims. -/
theorem Inv.setProducer {s : System ι α C} (inv : s.Inv) {p : ι} {state : Producer α}
    (inFlight : state.inFlight = (s.producers p).inFlight) (own : s.ProducerInv p state) :
    (s.setProducer p state).Inv := by
  refine inv.quiet p rfl rfl rfl rfl (fun p' ne => setProducer_of_ne s _ ne) ?_ ?_
  · rw [setProducer_self, inFlight]
  · rw [setProducer_self]
    exact own

theorem Inv.stepProducer [Fintype ι] {s s' : System ι α C} (inv : s.Inv) (two_le : 2 ≤ C.size)
    (few : C.size + Fintype.card ι < 2 ^ 64) {p : ι} (step : s.stepProducer p = some s') :
    s'.Inv := by
  have own := inv.producers p
  cases produces_of_stepProducer step with
  | claim state =>
      rw [inv.layout.write]
      exact inv.fetchAdd (by rw [state]; rfl) (.inl rfl)
  | wait => exact inv
  | enter state load =>
      rw [state] at own
      obtain ⟨q, holds, rfl, le⟩ := own
      rw [loadSequence_ofNat] at load
      have lt := (inv.layout.free_of_load two_le le (inv.close few holds.lt.le) load).1
      exact inv.setProducer (by rw [state]; rfl) ⟨q, holds, rfl, le, lt⟩
  | tryLoad state =>
      rw [state] at own
      exact inv.setProducer (by rw [state]; rfl) ⟨own, inv.layout.write⟩
  | free state load =>
      rw [state] at own
      obtain ⟨single, rfl⟩ := own
      rw [loadSequence_ofNat] at load
      have lt := (inv.layout.free_of_load two_le inv.layout.freed_le
        (inv.close few (Nat.le_refl _)) load).1
      exact inv.setProducer (by rw [state]; rfl) ⟨single, rfl, lt⟩
  | full state => exact inv.setProducer (by rw [state]; rfl) True.intro
  | tryClaim state =>
      rw [state] at own
      obtain ⟨single, rfl, lt⟩ := own
      exact inv.fetchAdd (by rw [state]; rfl) (.inr ⟨rfl, lt⟩)
  | copy state => exact inv.copy state
  | publish state => exact inv.publish state
  | done state => exact inv.setProducer (by rw [state]; rfl) True.intro

section Consumer

omit [DecidableEq ι]

/-- The consumer has seen that the next position is published. -/
theorem Inv.found {s : System ι α C} (inv : s.Inv) (state : s.consumer = .check)
    (ready : s.ring.ready = true) : ({ s with consumer := .copy } : System ι α C).Inv := by
  have freed : s.freed = s.returned.length := by rw [System.freed, state]; rfl
  have read := inv.read
  rw [state] at read
  have pub := (inv.layout.ready_iff (by rw [freed]; exact read)).mp ready
  refine inv.quietConsumer rfl rfl rfl inv.returned freed.symm (by rw [state]; rfl) ?_
  rw [freed] at pub
  exact (published_congr rfl (fun _ => rfl) _).mpr pub

/-- The consumer copies the payload of the next position. -/
theorem Inv.copyOut {s : System ι α C} (inv : s.Inv) (state : s.consumer = .copy) :
    ({ s with consumer := .release (s.ring.loadData s.ring.readIndex) } : System ι α C).Inv := by
  have freed : s.freed = s.returned.length := by rw [System.freed, state]; rfl
  have own := inv.consumer
  have read := inv.read
  rw [state] at own read
  have pub : s.Published s.returned.length := own
  refine inv.quietConsumer rfl rfl rfl inv.returned freed.symm (by rw [state]; rfl)
    ⟨(published_congr rfl (fun _ => rfl) _).mpr pub, ?_⟩
  have claimed := List.getElem?_eq_getElem pub.1
  have unreturned : s.returned.length < s.claims.length := pub.1
  refine ⟨s.claims[s.returned.length].1, ?_⟩
  have full := inv.layout.full _ _ _ freed.le pub claimed
  have read : s.ring.readIndex = BitVec.ofNat 64 s.returned.length := read
  rw [read, loadData_ofNat, full]
  exact claimed

/-- The consumer moves on to the next position. -/
theorem Inv.advance {s : System ι α C} (inv : s.Inv) {out : α}
    (state : s.consumer = .advance out) :
    ({ s with ring := s.ring.advanceRead, consumer := .done (some out) } : System ι α C).Inv := by
  have freed : s.freed = s.returned.length + 1 := by rw [System.freed, state]; rfl
  have own := inv.consumer
  have read := inv.read
  rw [state] at own read
  constructor
  · have published : ∀ q, ({ s with
        ring := s.ring.advanceRead
        consumer := .done (some out) } : System ι α C).Published q ↔ s.Published q :=
      published_congr rfl fun _ => rfl
    have layout := inv.layout.advanceRead.congr published
    rw [freed] at layout
    exact layout
  · have read : s.ring.readIndex = BitVec.ofNat 64 s.returned.length := read
    show s.ring.readIndex + 1 = BitVec.ofNat 64 (s.returned.length + 1)
    rw [read, BitVec.ofNat_add]
    rfl
  · exact fun p => (inv.producers p).frame rfl (by rw [freed]; rfl) fun _ _ _ _ _ _ _ => rfl
  · exact own
  · exact inv.returned

/-- `consume` returns to its caller. -/
theorem Inv.returnOut {s : System ι α C} (inv : s.Inv) {out : Option α}
    (state : s.consumer = .done out) :
    ({ s with consumer := .idle, returned := s.returned ++ out.toList } : System ι α C).Inv := by
  have own := inv.consumer
  rw [state] at own
  cases out with
  | none =>
      have same : s.returned ++ Option.toList none = s.returned := List.append_nil _
      refine inv.quietConsumer rfl rfl rfl ?_ ?_ ?_ True.intro
      · rw [same]; exact inv.returned
      · rw [System.freed, System.freed, state, same]; rfl
      · rw [state, same]; rfl
  | some out =>
      obtain ⟨p, claimed⟩ := own
      have length : (s.returned ++ Option.toList (some out)).length =
          s.returned.length + 1 := List.length_append
      refine inv.quietConsumer rfl rfl rfl ?_ ?_ ?_ True.intro
      · have payload : (s.claims.map Prod.snd)[s.returned.length]? = some out := by
          rw [List.getElem?_map, claimed]
          rfl
        exact concat_isPrefix inv.returned payload
      · rw [System.freed, System.freed, state, length]; rfl
      · rw [state, length]; rfl

theorem Inv.stepConsumer {s s' : System ι α C} (inv : s.Inv)
    (step : s.stepConsumer = some s') : s'.Inv := by
  cases consumes_of_stepConsumer step with
  | found state ready => exact inv.found state ready
  | nothing state =>
      have freed : s.freed = s.returned.length := by rw [System.freed, state]; rfl
      exact inv.quietConsumer rfl rfl rfl inv.returned freed.symm (by rw [state]; rfl) True.intro
  | copy state => exact inv.copyOut state
  | release state => exact inv.release state
  | advance state => exact inv.advance state
  | done state => exact inv.returnOut state

end Consumer

end System

/-- `try_produce` is called by the only producer. -/
def Label.Allowed {ι α : Type} : Label ι α → Prop
  | .tryProduce p _ => ∀ p', p' = p
  | _ => True

namespace System

variable {ι α : Type} {C : Capacity} [DecidableEq ι]

theorem of_step_produce {s s' : System ι α C} {p : ι} {item : α}
    (step : s.step (.produce p item) = some s') :
    s.producers p = .idle ∧
      s' = { s.setProducer p (.claim item) with calls := s.calls ++ [(p, item)] } := by
  simp only [System.step] at step
  split at step
  · rename_i idle
    exact ⟨idle, (Option.some.inj step).symm⟩
  · cases step

theorem of_step_tryProduce {s s' : System ι α C} {p : ι} {item : α}
    (step : s.step (.tryProduce p item) = some s') :
    s.producers p = .idle ∧
      s' = { s.setProducer p (.tryLoad item) with calls := s.calls ++ [(p, item)] } := by
  simp only [System.step] at step
  split at step
  · rename_i idle
    exact ⟨idle, (Option.some.inj step).symm⟩
  · cases step

theorem of_step_consume {s s' : System ι α C} (step : s.step .consume = some s') :
    s.consumer = .idle ∧ s' = { s with consumer := .check } := by
  simp only [System.step] at step
  split at step
  · rename_i idle
    exact ⟨idle, (Option.some.inj step).symm⟩
  · cases step

/-- A producer's step does not touch what the consumer has. -/
theorem stepProducer_frame {s s' : System ι α C} {p : ι} (step : s.stepProducer p = some s') :
    s'.consumer = s.consumer ∧ s'.returned = s.returned := by
  cases produces_of_stepProducer step <;> exact ⟨rfl, rfl⟩

omit [DecidableEq ι] in
/-- `consume` adds to the returned values when it returns, and only then. -/
theorem stepConsumer_returned {s s' : System ι α C} (step : s.stepConsumer = some s') :
    (∃ out, s.consumer = .done out ∧
      s' = { s with consumer := .idle, returned := s.returned ++ out.toList }) ∨
    (∀ out, s.consumer ≠ .done out) ∧ s'.returned = s.returned := by
  cases consumes_of_stepConsumer step with
  | done state => exact .inl ⟨_, state, rfl⟩
  | found state | nothing state | copy state | release state | advance state =>
      rw [state]
      exact .inr ⟨nofun, rfl⟩

omit [DecidableEq ι] in
/-- `consume` finds nothing only in its check. -/
theorem of_stepConsumer_none {s s' : System ι α C} (step : s.stepConsumer = some s')
    (nothing : s'.consumer = .done none) :
    s.consumer = .check ∧ s.ring.ready = false ∧ s'.returned = s.returned := by
  cases consumes_of_stepConsumer step with
  | nothing state ready => exact ⟨state, ready, rfl⟩
  | found | copy | release | advance | done => cases nothing

/-- A call that begins has no position yet. -/
theorem Inv.begin {s : System ι α C} (inv : s.Inv) {p : ι} (idle : s.producers p = .idle)
    {pc : Producer α} (outside : pc.inFlight = false) (own : s.ProducerInv p pc) (item : α) :
    ({ s.setProducer p pc with calls := s.calls ++ [(p, item)] } : System ι α C).Inv := by
  refine inv.quiet p rfl rfl rfl rfl (fun p' ne => setProducer_of_ne s _ ne) ?_ ?_
  · show ((s.setProducer p pc).producers p).inFlight = _
    rw [setProducer_self, idle]
    exact outside
  · show s.ProducerInv p ((s.setProducer p pc).producers p)
    rw [setProducer_self]
    exact own

/-- **The invariant of every interleaving**, with no more slots and threads than a 64-bit address
space holds. -/
theorem keeps_inv [Fintype ι] (two_le : 2 ≤ C.size) (few : C.size + Fintype.card ι < 2 ^ 64) :
    (machine ι α C).Keeps (fun _ l => l.Allowed) Inv := by
  intro s l s' inv allowed step
  cases l with
  | produce p item =>
      obtain ⟨idle, rfl⟩ := of_step_produce step
      refine inv.begin idle ?_ ?_ item
      · rfl
      · exact True.intro
  | tryProduce p item =>
      obtain ⟨idle, rfl⟩ := of_step_tryProduce step
      refine inv.begin idle ?_ ?_ item
      · rfl
      · exact allowed
  | producer p => exact inv.stepProducer two_le few step
  | consume =>
      obtain ⟨idle, rfl⟩ := of_step_consume step
      exact inv.quietConsumer rfl rfl rfl inv.returned (by rw [freed, freed, idle]; rfl)
        (by rw [idle]; rfl) True.intro
  | consumer => exact inv.stepConsumer step

end System

end Tickscope.Memory
