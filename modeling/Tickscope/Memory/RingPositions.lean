import Mathlib.Data.Nat.ModEq
import Mathlib.Tactic.Ring
import Tickscope.Memory.RingBuffer

/-!
# Positions on the ring

The code compares `size_t` positions that wrap; the proofs count positions in
`Nat`. `Capacity.cell q` is the slot of position `q`. At any time the slots hold
the window of positions from the first one the consumer has not freed, one slot
each, and `Layout` says what each slot of the window holds: a position that is
not published has its own number as sequence, a published one has its payload and
the next number. `Layout.claim`, `Layout.storeData`, `Layout.publish` and
`Layout.release` are the four writes to the ring.

What a thread concludes from one sequence load is `Layout.free_of_load` and
`Layout.ready_iff`. Both need two slots at least: with one slot, the number
behind a published position is the number of the position one lap later.
-/

namespace Tickscope.Memory

/-! ## Slots of positions -/

namespace Capacity

variable (C : Capacity)

theorem exists_size_eq : ∃ k, k < 64 ∧ C.size = 2 ^ k := by
  have isPower : C.size.isPowerOfTwo :=
    (Nat.and_sub_one_eq_zero_iff_isPowerOfTwo C.size_pos.ne').mp C.powerOfTwo
  obtain ⟨k, eq⟩ := isPower
  refine ⟨k, ?_, eq⟩
  have lt := C.size_lt
  rw [eq] at lt
  exact (Nat.pow_lt_pow_iff_right (by decide)).mp lt

theorem size_dvd : C.size ∣ 2 ^ 64 := by
  obtain ⟨k, lt, eq⟩ := C.exists_size_eq
  rw [eq]
  exact pow_dvd_pow 2 lt.le

theorem size_le : C.size ≤ 2 ^ 63 := by
  obtain ⟨k, lt, eq⟩ := C.exists_size_eq
  rw [eq]
  exact Nat.pow_le_pow_right (by decide) (by omega)

theorem two_dvd_size (two_le : 2 ≤ C.size) : 2 ∣ C.size := by
  obtain ⟨k, -, eq⟩ := C.exists_size_eq
  cases k with
  | zero => omega
  | succ k =>
      rw [eq, pow_succ]
      exact Nat.dvd_mul_left 2 _

/-- The slot of the position `q`, counted without wrapping. -/
def cell (q : Nat) : Fin C.size :=
  ⟨q % C.size, Nat.mod_lt q C.size_pos⟩

theorem cell_eq_iff {q r : Nat} : C.cell q = C.cell r ↔ q % C.size = r % C.size :=
  Fin.mk.injEq .. ▸ Iff.rfl

/-- `pos & MASK` is the position modulo the capacity, also after the position has wrapped. -/
@[simp] theorem slot_ofNat (q : Nat) : C.slot (BitVec.ofNat 64 q) = C.cell q := by
  obtain ⟨k, -, eq⟩ := C.exists_size_eq
  apply Fin.ext
  show (BitVec.ofNat 64 q &&& C.mask).toNat = q % C.size
  rw [BitVec.toNat_and, BitVec.toNat_ofNat, C.toNat_mask, eq, Nat.and_two_pow_sub_one_eq_mod,
    ← eq, Nat.mod_mod_of_dvd q C.size_dvd]

/-- Two positions of one window with the same slot are the same position. -/
theorem eq_of_cell_eq {first q r : Nat} (same : C.cell q = C.cell r)
    (hq : first ≤ q) (hq' : q < first + C.size) (hr : first ≤ r) (hr' : r < first + C.size) :
    q = r := by
  have modEq : q ≡ r [MOD C.size] := C.cell_eq_iff.mp same
  rcases Nat.le_total q r with le | le
  · have dvd := (Nat.modEq_iff_dvd' le).mp modEq
    have := Nat.eq_zero_of_dvd_of_lt dvd (by omega)
    omega
  · have dvd := (Nat.modEq_iff_dvd' le).mp modEq.symm
    have := Nat.eq_zero_of_dvd_of_lt dvd (by omega)
    omega

theorem cell_ne {first q r : Nat} (ne : q ≠ r) (hq : first ≤ q) (hq' : q < first + C.size)
    (hr : first ≤ r) (hr' : r < first + C.size) : C.cell q ≠ C.cell r :=
  fun same => ne (C.eq_of_cell_eq same hq hq' hr hr')

@[simp] theorem cell_add_size (q : Nat) : C.cell (q + C.size) = C.cell q := by
  rw [cell_eq_iff, Nat.add_mod_right]

/-- Every position from the start of a window on has the slot of one position of the window. -/
theorem exists_window_cell (first : Nat) {q : Nat} (le : first ≤ q) :
    ∃ r, first ≤ r ∧ r < first + C.size ∧ r ≤ q ∧ C.cell r = C.cell q := by
  have lt := Nat.mod_lt (q - first) C.size_pos
  have small := Nat.mod_le (q - first) C.size
  refine ⟨first + (q - first) % C.size, by omega, by omega, by omega, ?_⟩
  rw [cell_eq_iff, Nat.add_mod_mod, Nat.add_sub_cancel' le]

end Capacity

/-! ## Equality of wrapped positions -/

theorem ofNat_eq_ofNat_iff {a b : Nat} :
    BitVec.ofNat 64 a = BitVec.ofNat 64 b ↔ a ≡ b [MOD 2 ^ 64] := by
  rw [← BitVec.toNat_inj, BitVec.toNat_ofNat, BitVec.toNat_ofNat]
  exact Iff.rfl

theorem eq_of_ofNat_eq {a b : Nat} (eq : BitVec.ofNat 64 a = BitVec.ofNat 64 b) (le : a ≤ b)
    (lt : b - a < 2 ^ 64) : a = b := by
  have dvd := (Nat.modEq_iff_dvd' le).mp (ofNat_eq_ofNat_iff.mp eq)
  have := Nat.eq_zero_of_dvd_of_lt dvd lt
  omega

/-- Around an even ring, the number behind a position is never a number of its own slot. -/
theorem ofNat_succ_ne {size a b : Nat} (even : 2 ∣ size) (same : a % size = b % size) :
    BitVec.ofNat 64 (a + 1) ≠ BitVec.ofNat 64 b := by
  intro eq
  have parity : a + 1 ≡ b [MOD 2] := (ofNat_eq_ofNat_iff.mp eq).of_dvd (by decide)
  have slots : a ≡ b [MOD 2] := Nat.ModEq.of_dvd even same
  unfold Nat.ModEq at parity slots
  omega

/-! ## Loads and stores -/

namespace RingBuffer

variable {α : Type} {C : Capacity} {ring : RingBuffer α C} {q : Nat} {i : Fin C.size}

@[simp] theorem loadSequence_ofNat (ring : RingBuffer α C) (q : Nat) :
    ring.loadSequence (BitVec.ofNat 64 q) = (ring.slots (C.cell q)).sequence := by
  rw [loadSequence, C.slot_ofNat]

@[simp] theorem loadData_ofNat (ring : RingBuffer α C) (q : Nat) :
    ring.loadData (BitVec.ofNat 64 q) = (ring.slots (C.cell q)).data := by
  rw [loadData, C.slot_ofNat]

theorem slots_storeSequence_self (value : BitVec 64) :
    (ring.storeSequence (BitVec.ofNat 64 q) value).slots (C.cell q) =
      ⟨value, (ring.slots (C.cell q)).data⟩ := by
  rw [storeSequence, C.slot_ofNat]
  exact Function.update_self ..

theorem slots_storeSequence_of_ne (value : BitVec 64) (ne : i ≠ C.cell q) :
    (ring.storeSequence (BitVec.ofNat 64 q) value).slots i = ring.slots i := by
  rw [storeSequence, C.slot_ofNat]
  exact Function.update_of_ne ne ..

theorem slots_storeData_self (item : α) :
    (ring.storeData (BitVec.ofNat 64 q) item).slots (C.cell q) =
      ⟨(ring.slots (C.cell q)).sequence, item⟩ := by
  rw [storeData, C.slot_ofNat]
  exact Function.update_self ..

theorem slots_storeData_of_ne (item : α) (ne : i ≠ C.cell q) :
    (ring.storeData (BitVec.ofNat 64 q) item).slots i = ring.slots i := by
  rw [storeData, C.slot_ofNat]
  exact Function.update_of_ne ne ..

/-! ## The layout of the slots -/

/-- What the slots hold when the positions below `freed` are freed and those in `published`
are published; `claims` lists who claimed which position with which payload. -/
structure Layout {ι : Type} (ring : RingBuffer α C) (claims : List (ι × α)) (freed : Nat)
    (published : Nat → Prop) : Prop where
  write : ring.writeIndex = BitVec.ofNat 64 claims.length
  freed_le : freed ≤ claims.length
  claimed : ∀ q, published q → q < claims.length
  near : ∀ q, published q → q < freed + C.size
  free : ∀ q, freed ≤ q → q < freed + C.size → ¬ published q →
    (ring.slots (C.cell q)).sequence = BitVec.ofNat 64 q
  full : ∀ q p item, freed ≤ q → published q → claims[q]? = some (p, item) →
    ring.slots (C.cell q) = ⟨BitVec.ofNat 64 (q + 1), item⟩

namespace Layout

variable {ι : Type} {claims : List (ι × α)} {freed : Nat} {published : Nat → Prop}

theorem new (data : Fin C.size → α) :
    Layout (RingBuffer.new data) ([] : List (ι × α)) 0 fun _ => False where
  write := rfl
  freed_le := Nat.le_refl 0
  claimed := fun _ none => none.elim
  near := fun _ none => none.elim
  free := fun q _ lt _ => by
    have small : q < C.size := by omega
    show BitVec.ofNat 64 (q % C.size) = BitVec.ofNat 64 q
    rw [Nat.mod_eq_of_lt small]
  full := fun _ _ _ _ none _ => none.elim

theorem congr {published' : Nat → Prop} (layout : Layout ring claims freed published)
    (same : ∀ q, published' q ↔ published q) : Layout ring claims freed published' := by
  have eq : published' = published := funext fun q => propext (same q)
  rw [eq]
  exact layout

/-- The claim of the next position. -/
theorem claim (layout : Layout ring claims freed published) (c : ι × α) :
    Layout ring.advanceWrite (claims ++ [c]) freed published where
  write := by
    rw [List.length_append, List.length_singleton, BitVec.ofNat_add, ← layout.write]
    rfl
  freed_le := by
    rw [List.length_append]
    exact Nat.le_add_right_of_le layout.freed_le
  claimed := fun q pub => by
    rw [List.length_append]
    exact Nat.lt_add_right _ (layout.claimed q pub)
  near := layout.near
  free := layout.free
  full := fun q p item le pub at_q => by
    rw [List.getElem?_append_left (layout.claimed q pub)] at at_q
    exact layout.full q p item le pub at_q

/-- The payload store at a position of the window that is not published. -/
theorem storeData (layout : Layout ring claims freed published) {q : Nat} (le : freed ≤ q)
    (lt : q < freed + C.size) (free : ¬ published q) (item : α) :
    Layout (ring.storeData (BitVec.ofNat 64 q) item) claims freed published where
  write := layout.write
  freed_le := layout.freed_le
  claimed := layout.claimed
  near := layout.near
  free := fun r rle rlt rfree => by
    by_cases same : r = q
    · subst same
      rw [slots_storeData_self]
      exact layout.free r rle rlt rfree
    · rw [slots_storeData_of_ne item (C.cell_ne same rle rlt le lt)]
      exact layout.free r rle rlt rfree
  full := fun r p x rle pub at_r => by
    have ne : r ≠ q := fun same => free (same ▸ pub)
    rw [slots_storeData_of_ne item (C.cell_ne ne rle (layout.near r pub) le lt)]
    exact layout.full r p x rle pub at_r

/-- The sequence store that publishes a position whose payload is in place. -/
theorem publish (layout : Layout ring claims freed published) {q : Nat} {p : ι} {item : α}
    (le : freed ≤ q) (lt : q < freed + C.size) (claimed : claims[q]? = some (p, item))
    (stored : (ring.slots (C.cell q)).data = item) :
    Layout (ring.storeSequence (BitVec.ofNat 64 q) (BitVec.ofNat 64 q + 1)) claims freed
      fun r => published r ∨ r = q where
  write := layout.write
  freed_le := layout.freed_le
  claimed := fun r pub => by
    rcases pub with pub | rfl
    · exact layout.claimed r pub
    · exact (List.getElem?_eq_some_iff.mp claimed).1
  near := fun r pub => by
    rcases pub with pub | rfl
    · exact layout.near r pub
    · exact lt
  free := fun r rle rlt rfree => by
    rw [not_or] at rfree
    rw [slots_storeSequence_of_ne _ (C.cell_ne rfree.2 rle rlt le lt)]
    exact layout.free r rle rlt rfree.1
  full := fun r p' x rle pub at_r => by
    by_cases same : r = q
    · subst same
      rw [slots_storeSequence_self, stored, BitVec.ofNat_add]
      cases claimed.symm.trans at_r
      rfl
    · have pub := pub.resolve_right same
      rw [slots_storeSequence_of_ne _ (C.cell_ne same rle (layout.near r pub) le lt)]
      exact layout.full r p' x rle pub at_r

/-- The sequence store that frees the first position of the window for the next lap. -/
theorem release (layout : Layout ring claims freed published) (pub : published freed) :
    Layout (ring.storeSequence (BitVec.ofNat 64 freed)
      (BitVec.ofNat 64 freed + BitVec.ofNat 64 C.size)) claims (freed + 1) published where
  write := layout.write
  freed_le := layout.claimed freed pub
  claimed := layout.claimed
  near := fun q pubq => by
    have := layout.near q pubq
    omega
  free := fun q le lt free => by
    have pos := C.size_pos
    by_cases last : q = freed + C.size
    · subst last
      rw [C.cell_add_size, slots_storeSequence_self, BitVec.ofNat_add]
    · have ne : C.cell q ≠ C.cell freed :=
        C.cell_ne (by omega) (show freed ≤ q by omega) (by omega) (by omega) (by omega)
      rw [slots_storeSequence_of_ne _ ne]
      exact layout.free q (by omega) (by omega) free
  full := fun q p item le pubq at_q => by
    have near := layout.near q pubq
    have pos := C.size_pos
    have ne : C.cell q ≠ C.cell freed :=
      C.cell_ne (by omega) (show freed ≤ q by omega) (by omega) (by omega) (by omega)
    rw [slots_storeSequence_of_ne _ ne]
    exact layout.full q p item (by omega) pubq at_q

theorem advanceRead (layout : Layout ring claims freed published) :
    Layout ring.advanceRead claims freed published :=
  ⟨layout.write, layout.freed_le, layout.claimed, layout.near, layout.free, layout.full⟩

/-! ## What one sequence load tells -/

/-- A published position of the window carries the number behind it. -/
theorem sequence_of_published (layout : Layout ring claims freed published) {q : Nat}
    (le : freed ≤ q) (pub : published q) :
    (ring.slots (C.cell q)).sequence = BitVec.ofNat 64 (q + 1) := by
  have claimed := List.getElem?_eq_getElem (layout.claimed q pub)
  rw [layout.full q _ _ le pub claimed]

/-- A thread that finds its own position in the slot's sequence owns the slot: the position is
in the window and nobody has published it. -/
theorem free_of_load (layout : Layout ring claims freed published) (two_le : 2 ≤ C.size)
    {q : Nat} (le : freed ≤ q) (close : q - freed < 2 ^ 64)
    (load : (ring.slots (C.cell q)).sequence = BitVec.ofNat 64 q) :
    q < freed + C.size ∧ ¬ published q := by
  obtain ⟨r, rle, rlt, rq, same⟩ := C.exists_window_cell freed le
  rw [← same] at load
  have unpublished : ¬ published r := fun pub => by
    rw [layout.sequence_of_published rle pub] at load
    exact ofNat_succ_ne (C.two_dvd_size two_le) (C.cell_eq_iff.mp same) load
  rw [layout.free r rle rlt unpublished] at load
  have eq : r = q := eq_of_ofNat_eq load rq (by omega)
  subst eq
  exact ⟨rlt, unpublished⟩

/-- A position of the window that is not published passes the check. -/
theorem load_of_free (layout : Layout ring claims freed published) {q : Nat} (le : freed ≤ q)
    (lt : q < freed + C.size) (free : ¬ published q) :
    (ring.slots (C.cell q)).sequence = BitVec.ofNat 64 q :=
  layout.free q le lt free

/-- The consumer's check succeeds exactly when its position is published. -/
theorem ready_iff (layout : Layout ring claims freed published)
    (read : ring.readIndex = BitVec.ofNat 64 freed) : ring.ready ↔ published freed := by
  have pos := C.size_pos
  have succ : BitVec.ofNat 64 freed + 1 = BitVec.ofNat 64 (freed + 1) :=
    (BitVec.ofNat_add ..).symm
  rw [ready, read, beq_iff_eq, loadSequence_ofNat, succ]
  constructor
  · intro load
    by_contra unpublished
    rw [layout.free freed (Nat.le_refl _) (by omega) unpublished] at load
    have := eq_of_ofNat_eq load (Nat.le_succ _) (by omega)
    omega
  · exact layout.sequence_of_published (Nat.le_refl _)

end Layout

end RingBuffer

end Tickscope.Memory
