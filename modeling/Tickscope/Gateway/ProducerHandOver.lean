import Mathlib.Data.List.Induction
import Tickscope.Gateway.WebSocketClient

/-!
# Handing over the producer

In debug builds `RingBuffer::try_produce` keeps the id of the thread that called it first, and
asserts that every later caller has the same. The client lets its current I/O thread call it, and
the watchdog of `run` replaces this thread whenever the connection is stale: one after the other,
so that there is a single producer at any time. `hand_over_iff` says which runs the assertion
survives.
-/

namespace Tickscope.Gateway

open Tickscope.Lib

variable {Tid : Type} [DecidableEq Tid]

/-! ## The guard of `try_produce` -/

/-- The guard is passed and `dbg_tryproduce_tid_` is what is returned, or the assertion fails.
`compare_exchange_strong` stores the caller's id if there is none, and reads the one that is
there otherwise. -/
def checkProducer (owner : Option Tid) (self : Tid) : Option (Option Tid) :=
  match owner with
  | none => some (some self)
  | some expected => if expected ≠ self then none else some owner

/-- The calls of these threads, in this order. -/
def checkProducers (owner : Option Tid) (callers : List Tid) : Option (Option Tid) :=
  callers.foldlM checkProducer owner

/-- All calls come from the thread of the first one. -/
def Single (callers : List Tid) : Prop := ∀ tid ∈ callers, some tid = callers.head?

instance (callers : List Tid) : Decidable (Single callers) :=
  inferInstanceAs (Decidable (∀ tid ∈ callers, some tid = callers.head?))

omit [DecidableEq Tid] in
theorem Single.of_append {callers later : List Tid} (single : Single (callers ++ later)) :
    Single callers := by
  intro tid mem
  cases callers with
  | nil => cases mem
  | cons first callers => exact single tid (List.mem_append_left _ mem)

omit [DecidableEq Tid] in
theorem single_iff {callers : List Tid} :
    Single callers ↔ ∀ caller ∈ callers, ∀ other ∈ callers, caller = other := by
  cases callers with
  | nil => exact iff_of_true nofun nofun
  | cons first callers =>
      constructor
      · intro single caller mem other mem'
        exact Option.some.inj ((single caller mem).trans (single other mem').symm)
      · exact fun same caller mem => congrArg some (same caller mem first List.mem_cons_self)

/-- One more call passes the guard exactly if it comes from the thread of the first. -/
theorem checkProducer_eq {callers : List Tid} (single : Single callers) (tid : Tid) :
    Single (callers ++ [tid]) ∧
        checkProducer callers.head? tid = some (callers ++ [tid]).head? ∨
      ¬ Single (callers ++ [tid]) ∧ checkProducer callers.head? tid = none := by
  cases callers with
  | nil =>
      refine .inl ⟨?_, rfl⟩
      intro caller mem
      rw [List.mem_singleton.mp mem]
      rfl
  | cons first callers =>
      by_cases same : first = tid
      · refine .inl ⟨?_, if_neg (not_not.mpr same)⟩
        intro caller mem
        rcases List.mem_append.mp mem with mem | mem
        · exact single caller mem
        · rw [List.mem_singleton.mp mem, ← same]
          rfl
      · refine .inr ⟨fun all => same ?_, if_pos same⟩
        exact (Option.some.inj (all tid (List.mem_append_right _ List.mem_cons_self))).symm

/-- **The guard** holds the first caller as long as there is no other. -/
theorem checkProducers_eq {callers : List Tid} (single : Single callers) (later : List Tid) :
    Single (callers ++ later) ∧
        checkProducers callers.head? later = some (callers ++ later).head? ∨
      ¬ Single (callers ++ later) ∧ checkProducers callers.head? later = none := by
  induction later generalizing callers with
  | nil =>
      rw [List.append_nil]
      exact .inl ⟨single, rfl⟩
  | cons tid later ih =>
      rw [checkProducers, List.foldlM_cons, List.append_cons]
      rcases checkProducer_eq single tid with ⟨single', next⟩ | ⟨other, next⟩
      · rw [next]
        exact ih single'
      · rw [next]
        exact .inr ⟨fun all => other all.of_append, rfl⟩

/-! ## The client and its I/O threads -/

/-- The client, the id of its I/O thread, and the guard of the ring. -/
structure Guarded (Tid : Type) where
  client : System
  thread : Option Tid
  owner : Option Tid
  /-- an assertion has failed, and with it the process -/
  aborted : Bool

/-- A step of the client. If it starts an I/O thread, `spawned` is its id; if it is the Message
callback, `parse_and_push` calls `try_produce` so many times. -/
structure GuardedLabel (Tid : Type) where
  client : Label
  spawned : Tid
  calls : Nat

namespace Guarded

def new (tokens : List Str) : Guarded Tid := ⟨.new tokens, none, none, false⟩

/-- The threads that call `try_produce` in a step. -/
def callers (s : Guarded Tid) (l : GuardedLabel Tid) : List Tid :=
  match l.client, s.thread with
  | .message _, some tid => List.replicate l.calls tid
  | _, _ => []

/-- The I/O thread after a step. -/
def nextThread (s : Guarded Tid) (client : System) (spawned : Tid) : Option Tid :=
  if client.io = .stopped then none
  else if s.client.io = .stopped then some spawned
  else s.thread

def step (s : Guarded Tid) (l : GuardedLabel Tid) : Option (Guarded Tid) :=
  if s.aborted then none
  else
    (s.client.step l.client).map fun client =>
      let thread := s.nextThread client l.spawned
      match checkProducers s.owner (s.callers l) with
      | some owner => ⟨client, thread, owner, false⟩
      | none => ⟨client, thread, s.owner, true⟩

def machine : Machine (Guarded Tid) (GuardedLabel Tid) := ⟨step⟩

/-- What holds of a run with these callers. -/
def Inv (s : Guarded Tid) (all : List Tid) : Prop :=
  s.aborted = false ∧ Single all ∧ s.owner = all.head? ∨ s.aborted = true ∧ ¬ Single all

theorem inv_step {s s' : Guarded Tid} {l : GuardedLabel Tid} {all : List Tid} (inv : s.Inv all)
    (step : machine.step s l = some s') : s'.Inv (all ++ s.callers l) := by
  rcases inv with ⟨running, single, owner⟩ | ⟨aborted, -⟩
  · simp only [machine, Guarded.step, running, Bool.false_eq_true, if_false] at step
    obtain ⟨client, -, eq⟩ := Option.map_eq_some_iff.mp step
    rw [owner] at eq
    rcases checkProducers_eq single (s.callers l) with ⟨single', checked⟩ | ⟨other, failed⟩
    · rw [checked] at eq
      cases eq
      exact .inl ⟨rfl, single', rfl⟩
    · rw [failed] at eq
      cases eq
      exact .inr ⟨rfl, other⟩
  · simp only [machine, Guarded.step, aborted, if_true] at step
    cases step

theorem inv_run {tokens : List Str} {labels : List (GuardedLabel Tid)} {s : Guarded Tid}
    (reached : machine.run (new tokens) labels = some s) :
    s.Inv (machine.trace callers (new tokens) labels) := by
  induction labels using List.reverseRecOn generalizing s with
  | nil =>
      cases reached
      exact .inl ⟨rfl, nofun, rfl⟩
  | append_singleton labels l ih =>
      obtain ⟨s', before, step⟩ := Machine.run_concat_eq_some.mp reached
      rw [Machine.trace_append before, Machine.trace_cons step]
      have now := inv_step (ih before) step
      rwa [Machine.trace_nil, List.append_nil]

/-- There is an I/O thread from `ws.start()` to the end of `ws.stop()`, which joins it: the client
has one at a time. -/
theorem thread_of_run {tokens : List Str} {labels : List (GuardedLabel Tid)} {s : Guarded Tid}
    (reached : machine.run (new tokens) labels = some s) :
    s.thread.isSome ↔ s.client.io ≠ .stopped := by
  have start : (new tokens : Guarded Tid).thread.isSome ↔
      (new tokens : Guarded Tid).client.io ≠ .stopped :=
    iff_of_false Bool.false_ne_true fun ne => ne rfl
  refine Machine.Keeps.run (P := fun _ _ => True)
    (I := fun s : Guarded Tid => s.thread.isSome ↔ s.client.io ≠ .stopped) ?_ start
    (Machine.along_of_forall_mem (fun _ _ _ => True.intro) _) reached
  intro s l s' inv _ step
  have next : s'.thread = s.nextThread s'.client l.spawned := by
    simp only [machine, Guarded.step] at step
    split at step
    · cases step
    · obtain ⟨client, -, eq⟩ := Option.map_eq_some_iff.mp step
      split at eq <;> cases eq <;> rfl
  rw [next, nextThread]
  by_cases joined : s'.client.io = .stopped
  · rw [if_pos joined]
    exact iff_of_false Bool.false_ne_true (not_not.mpr joined)
  · rw [if_neg joined]
    by_cases before : s.client.io = .stopped
    · rw [if_pos before]
      exact iff_of_true rfl joined
    · rw [if_neg before]
      exact iff_of_true (inv.mpr before) joined

/-- **Handing over.** The assertion holds throughout a run of the client, however often its I/O
thread is replaced, exactly if all calls of `try_produce` come from threads with the same id. -/
theorem hand_over_iff (tokens : List Str) (labels : List (GuardedLabel Tid)) (s : Guarded Tid)
    (reached : machine.run (new tokens) labels = some s) :
    s.aborted = false ↔ ∀ caller ∈ machine.trace callers (new tokens) labels,
      ∀ other ∈ machine.trace callers (new tokens) labels, caller = other := by
  rw [← single_iff]
  rcases inv_run reached with ⟨running, single, -⟩ | ⟨aborted, other⟩
  · exact iff_of_true running single
  · refine iff_of_false (fun running => ?_) other
    rw [aborted] at running
    cases running

/-- The client connects and gets a message with one tick. -/
def connected (tid : Nat) : List (GuardedLabel Nat) :=
  [.main 0, .connect, .io 0, .io 1, .io 1, .message 1].map fun l => ⟨l, tid, 1⟩

/-- No message comes for 100 seconds, and the watchdog allows 90. It stops the first I/O thread and
starts another, which gets the next message. -/
def stale (second : Nat) : List (GuardedLabel Nat) :=
  ⟨.main 0, 1, 0⟩ :: connected 1 ++
    [.main 2, .main 2, .main 2, .main 100001, .main 100001, .main 100001, .main 100001,
      .closed false, .main 100001].map (⟨·, 1, 0⟩) ++ connected second

/-- The second thread gets the id of the first, which is free again. -/
theorem hand_over_iff_reusedId :
    machine.trace callers (new []) (stale 1) = [1, 1] ∧
      ∃ s, machine.run (new []) (stale 1) = some s ∧ s.aborted = false := by
  have ends : (machine.run (new []) (stale 1)).isSome = true := by decide
  obtain ⟨s, reached⟩ := Option.isSome_iff_exists.mp ends
  exact ⟨by decide, s, reached, (hand_over_iff [] _ s reached).mpr (by decide)⟩

/-- The second thread has an id of its own, and violates the assertion. -/
theorem hand_over_fails_when_stale :
    machine.trace callers (new []) (stale 2) = [1, 2] ∧
      ∃ s, machine.run (new []) (stale 2) = some s ∧ s.aborted = true := by
  have ends : (machine.run (new []) (stale 2)).map aborted = some true := by decide
  obtain ⟨s, reached, aborted⟩ := Option.map_eq_some_iff.mp ends
  exact ⟨by decide, s, reached, aborted⟩

end Guarded

end Tickscope.Gateway
