import Mathlib.Algebra.BigOperators.Group.List.Basic
import Tickscope.Journal.RoundTrip

/-!
# A journal that several sessions have appended to

A harvester that is started again in the same rotation window opens the window's file with `"ab"`
and goes on at its end, wherever that is. The decoder reads in strides of 128 bytes from the start
of the file, so a record that a crash has cut moves everything behind it. `unpacked_sessions_iff`
says exactly when the records that it unpacks are those that were written.
-/

namespace Tickscope.Journal

open Tickscope.Backtest Tickscope.Core Tickscope.Feedhandler Tickscope.Lib Tickscope.Lib.OnDemand

variable {D : Type}

/-! ## Unpacking -/

/-- The records that `iter_unpack` goes over; none when `validate_size` exits. -/
def unpacked (data : Str) : List Str :=
  match validateSize data with
  | none => []
  | some size => strides tickSize size.1 data

theorem unpacked_eq (data : Str) :
    unpacked data = strides tickSize (data.length / tickSize) data := by
  unfold unpacked validateSize
  by_cases noRecord : data.length / tickSize = 0
  · simp [noRecord, strides]
  · simp [noRecord]

/-- What is decoded are the unpacked records. -/
theorem decodeJournal_eq (layout : DoubleLayout D) (data : Str) :
    decodeJournal layout data =
      if unpacked data = [] then none else decodeAll layout (unpacked data) := by
  have count : unpacked data = [] ↔ data.length / tickSize = 0 := by
    rw [← List.length_eq_zero_iff, unpacked_eq, length_strides]
  rw [if_congr count rfl rfl, unpacked_eq, decodeJournal]
  unfold validateSize
  by_cases noRecord : data.length / tickSize = 0
  · simp [noRecord]
  · simp [noRecord, decodeRecords]

/-! ## Sessions -/

/-- One run of the harvester: the records that it has written into this window, and how many of
their bytes have reached the file. -/
structure Session (D : Type) where
  written : List (Record D)
  kept : Nat

namespace Session

/-- What the session appends to the file. -/
def bytes (layout : DoubleLayout D) (session : Session D) : Str :=
  (session.written.flatMap (encodeTick layout)).take session.kept

/-- The records of which every byte has reached the file. -/
def complete (session : Session D) : List (Record D) :=
  session.written.take (session.kept / tickSize)

/-- The bytes behind the last complete record. -/
def torn (layout : DoubleLayout D) (session : Session D) : Str :=
  (session.bytes layout).drop (session.kept / tickSize * tickSize)

theorem bytes_eq (layout : DoubleLayout D) (session : Session D) :
    session.bytes layout =
      session.complete.flatMap (encodeTick layout) ++ session.torn layout := by
  have whole : session.complete.flatMap (encodeTick layout) =
      (session.bytes layout).take (session.kept / tickSize * tickSize) := by
    rw [complete, bytes, List.take_take, min_eq_left (Nat.div_mul_le_self _ _), List.flatMap_def,
      List.flatMap_def, List.map_take, flatten_take_of_fixed (length_of_mem_encoded layout _)]
  rw [whole, torn, List.take_append_drop]

theorem length_torn_lt (layout : DoubleLayout D) (session : Session D) :
    (session.torn layout).length < tickSize := by
  have rest : session.kept % tickSize < tickSize := Nat.mod_lt _ (by decide)
  have parts := Nat.div_add_mod' session.kept tickSize
  rw [torn, bytes, List.length_drop, List.length_take]
  omega

end Session

/-- The file of a window. -/
def windowFile (layout : DoubleLayout D) (sessions : List (Session D)) : Str :=
  sessions.flatMap (Session.bytes layout)

/-- Every complete record of every session, in order. -/
def completeRecords (sessions : List (Session D)) : List (Record D) :=
  sessions.flatMap Session.complete

/-- How many bytes belong to no complete record. -/
def tornBytes (layout : DoubleLayout D) (sessions : List (Session D)) : Nat :=
  (sessions.map fun session => (session.torn layout).length).sum

/-- Nothing is moved by the first torn record: no complete record follows it, or those that do
read the same from where it starts. -/
def Unmoved (layout : DoubleLayout D) : List (Session D) → Prop
  | [] => True
  | session :: later =>
      if session.torn layout = [] then Unmoved layout later
      else (completeRecords later).flatMap (encodeTick layout) <+:
        session.torn layout ++ windowFile layout later

theorem length_windowFile (layout : DoubleLayout D) (sessions : List (Session D)) :
    (windowFile layout sessions).length =
      (completeRecords sessions).length * tickSize + tornBytes layout sessions := by
  induction sessions with
  | nil => rfl
  | cons session later ih =>
      have here : (session.complete.flatMap (encodeTick layout)).length =
          session.complete.length * tickSize := by
        rw [List.flatMap_def, length_flatten_of_fixed (length_of_mem_encoded layout _),
          List.length_map]
      have bytes : (session.bytes layout).length =
          session.complete.length * tickSize + (session.torn layout).length := by
        rw [Session.bytes_eq, List.length_append, here]
      have file : windowFile layout (session :: later) =
          session.bytes layout ++ windowFile layout later := List.flatMap_cons
      have records : completeRecords (session :: later) =
          session.complete ++ completeRecords later := List.flatMap_cons
      have rest : tornBytes layout (session :: later) =
          (session.torn layout).length + tornBytes layout later := List.sum_cons
      rw [file, records, rest, List.length_append, List.length_append, ih, bytes, Nat.add_mul]
      omega

theorem prefix_windowFile_iff (layout : DoubleLayout D) (sessions : List (Session D)) :
    (completeRecords sessions).flatMap (encodeTick layout) <+: windowFile layout sessions ↔
      Unmoved layout sessions := by
  induction sessions with
  | nil => exact iff_of_true (List.prefix_rfl) trivial
  | cons session later ih =>
      have file : windowFile layout (session :: later) =
          session.bytes layout ++ windowFile layout later := List.flatMap_cons
      have records : completeRecords (session :: later) =
          session.complete ++ completeRecords later := List.flatMap_cons
      rw [file, records, Session.bytes_eq, List.flatMap_append, List.append_assoc,
        List.prefix_append_right_inj, Unmoved]
      by_cases whole : session.torn layout = []
      · rw [if_pos whole, whole, List.nil_append, ih]
      · rw [if_neg whole]

/-- **Torn records.** The decoder unpacks and decodes every complete record of every session, in
order, and nothing else, if and only if fewer than 128 bytes are torn in all sessions together
and the first torn record moves nothing. -/
theorem unpacked_sessions_iff (layout : DoubleLayout D) (sessions : List (Session D)) :
    (unpacked (windowFile layout sessions) =
          (completeRecords sessions).map (encodeTick layout) ∧
        (completeRecords sessions ≠ [] →
          decodeJournal layout (windowFile layout sessions) =
            decodeAll layout ((completeRecords sessions).map (encodeTick layout)))) ↔
      tornBytes layout sessions < tickSize ∧ Unmoved layout sessions := by
  have decoded : unpacked (windowFile layout sessions) =
        (completeRecords sessions).map (encodeTick layout) →
      completeRecords sessions ≠ [] →
        decodeJournal layout (windowFile layout sessions) =
          decodeAll layout ((completeRecords sessions).map (encodeTick layout)) := by
    intro same nonempty
    rw [decodeJournal_eq, same, if_neg]
    rwa [List.map_eq_nil_iff]
  have size : (windowFile layout sessions).length <
        ((completeRecords sessions).length + 1) * tickSize ↔
      tornBytes layout sessions < tickSize := by
    rw [length_windowFile, Nat.add_mul, Nat.one_mul, Nat.add_lt_add_iff_left]
  rw [and_iff_left_of_imp decoded, unpacked_eq,
    strides_eq_iff (by decide) (length_of_mem_encoded layout _), List.length_map, size,
    ← List.flatMap_def, prefix_windowFile_iff, and_comm]

/-- A crash that no session follows moves nothing. -/
theorem unmoved_of_torn_last (layout : DoubleLayout D) {sessions : List (Session D)}
    (whole : ∀ session ∈ sessions, session.torn layout = []) (last : Session D) :
    tornBytes layout (sessions ++ [last]) < tickSize ∧ Unmoved layout (sessions ++ [last]) := by
  induction sessions with
  | nil =>
      constructor
      · rw [List.nil_append, tornBytes, List.map_singleton, List.sum_singleton]
        exact last.length_torn_lt layout
      · rw [List.nil_append, Unmoved]
        split
        · trivial
        · exact List.nil_prefix
  | cons session later ih =>
      rw [List.forall_mem_cons] at whole
      have rest := ih whole.2
      constructor
      · rw [List.cons_append, tornBytes, List.map_cons, List.sum_cons, whole.1, List.length_nil,
          Nat.zero_add]
        exact rest.1
      · rw [List.cons_append, Unmoved, if_pos whole.1]
        exact rest.2

/-! ## A crash and a new start -/

def plainTick : Record (BitVec 64) :=
  (⟨1, 2, 3, 4, 5, 0, 0, copyAssetId (ascii "46553")⟩, padding)

/-- A record of which half is kept, then a complete record. -/
def restarted : List (Session (BitVec 64)) := [⟨[plainTick], 64⟩, ⟨[plainTick], 128⟩]

/-- One record is unpacked, and it is not the one that was written. -/
theorem unpacked_fails_at_restart :
    (completeRecords restarted).length = 1 ∧
    (unpacked (windowFile bitsLayout restarted)).length = 1 ∧
    unpacked (windowFile bitsLayout restarted) ≠ [encodeTick bitsLayout plainTick] ∧
    ¬ (unpacked (windowFile bitsLayout restarted) =
          (completeRecords restarted).map (encodeTick bitsLayout) ∧
        (completeRecords restarted ≠ [] →
          decodeJournal bitsLayout (windowFile bitsLayout restarted) =
            decodeAll bitsLayout ((completeRecords restarted).map (encodeTick bitsLayout)))) := by
  have moved : unpacked (windowFile bitsLayout restarted) ≠
      (completeRecords restarted).map (encodeTick bitsLayout) := by
    decide +kernel
  exact ⟨by decide +kernel, by decide +kernel, by decide +kernel, fun both => moved both.1⟩

end Tickscope.Journal
