import Tickscope.Memory.RingFifo

/-!
# Room in the ring

One thread calls `try_produce` for some items, one after the other, while the consumer does what
it likes. The calls return (`exists_pushes`), and when there is a free slot for each of them at
the start, all are accepted in their order (`Inv.accepted_of_pushes`).
-/

namespace Tickscope.Memory

open Tickscope.Lib RingBuffer

/-- The items of the calls that a step makes. -/
def Label.items {ι α : Type} : Label ι α → List α
  | .produce _ item => [item]
  | .tryProduce _ item => [item]
  | _ => []

/-- The item of a call that has been neither accepted nor rejected. -/
def Producer.inHand {α : Type} (state : Producer α) : List α :=
  match state.pusher with
  | .called item => [item]
  | _ => []

namespace System

variable {α : Type} {C : Capacity}

/-- From `s` to `t` the producer calls `try_produce` for these items and is back from all calls. -/
def Pushes (s : System Unit α C) (items : List α) (t : System Unit α C) : Prop :=
  s.producers () = .idle ∧ t.producers () = .idle ∧ ∃ labels : List (Label Unit α),
    (∀ l ∈ labels, l.trying = true) ∧ labels.flatMap Label.items = items ∧
      (machine Unit α C).run s labels = some t

/-! ## One step -/

theorem freed_stepConsumer {s s' : System Unit α C} (step : s.stepConsumer = some s') :
    s.freed ≤ s'.freed := by
  cases consumes_of_stepConsumer step with
  | found state | nothing state | copy state | release state | advance state =>
      rw [freed, freed, state]
      simp [Consumer.frees]
  | @done out state =>
      rw [freed, freed, state, List.length_append]
      cases out with
      | none => exact Nat.le_refl _
      | some out => exact Nat.le_refl _

theorem delivers_of_quiet {s s' : System Unit α C} {items : List α}
    (accepted : s'.accepted = s.accepted)
    (inHand : (s'.producers ()).inHand = (s.producers ()).inHand ++ items) :
    s'.accepted ++ (s'.producers ()).inHand =
      s.accepted ++ (s.producers ()).inHand ++ items := by
  rw [accepted, inHand, List.append_assoc]

/-- With room for the item in hand, what is accepted and what is in hand grows by the items of the
step. -/
theorem Inv.delivers {s s' : System Unit α C} (inv : s.Inv) (two_le : 2 ≤ C.size)
    {l : Label Unit α}
    (room : s.accepted.length + (s.producers ()).inHand.length ≤ s.freed + C.size)
    (step : s.step l = some s') :
    s'.accepted ++ (s'.producers ()).inHand =
      s.accepted ++ (s.producers ()).inHand ++ l.items ∧ s.freed ≤ s'.freed := by
  cases l with
  | produce p item =>
      obtain ⟨idle, rfl⟩ := of_step_produce step
      refine ⟨delivers_of_quiet (accepted_of_quiet rfl ?_) ?_, Nat.le_refl _⟩
      · rw [idle]
        rfl
      · rw [idle]
        rfl
  | tryProduce p item =>
      obtain ⟨idle, rfl⟩ := of_step_tryProduce step
      refine ⟨delivers_of_quiet (accepted_of_quiet rfl ?_) ?_, Nat.le_refl _⟩
      · rw [idle]
        rfl
      · rw [idle]
        rfl
  | producer p =>
      have frame := stepProducer_frame step
      refine ⟨?_, by rw [freed, freed, frame.1, frame.2]⟩
      cases produces_of_stepProducer step with
      | claim state | tryClaim state =>
          exact delivers_of_quiet (accepted_of_claim rfl (by rw [state]; rfl) rfl)
            (by rw [state]; rfl)
      | wait => exact delivers_of_quiet rfl (List.append_nil _).symm
      | enter state | tryLoad state | free state | copy state | done state =>
          exact delivers_of_quiet (accepted_of_quiet rfl (by rw [state]; rfl)) (by rw [state]; rfl)
      | full state taken =>
          have full := (inv.tryCheck_iff two_le state).mp taken
          rw [state, full] at room
          exact absurd room (Nat.not_succ_le_self _)
      | publish state =>
          have published := (inv.publish_accepted state).1
          rw [accepted_of_outside rfl, state]
          exact congrArg (· ++ []) published
  | consume =>
      obtain ⟨idle, rfl⟩ := of_step_consume step
      refine ⟨delivers_of_quiet rfl (List.append_nil _).symm, ?_⟩
      rw [freed, freed, idle]
      exact Nat.le_refl _
  | consumer =>
      refine ⟨delivers_of_quiet (accepted_stepConsumer step) ?_, freed_stepConsumer step⟩
      cases consumes_of_stepConsumer step <;> exact (List.append_nil _).symm

/-! ## Every run -/

theorem Inv.accepted_of_run {s t : System Unit α C} (inv : s.Inv) (two_le : 2 ≤ C.size)
    {labels : List (Label Unit α)}
    (room : s.accepted.length + (s.producers ()).inHand.length +
      (labels.flatMap Label.items).length ≤ s.freed + C.size)
    (reached : (machine Unit α C).run s labels = some t) :
    t.accepted ++ (t.producers ()).inHand =
      s.accepted ++ (s.producers ()).inHand ++ labels.flatMap Label.items := by
  induction labels generalizing s with
  | nil =>
      cases reached
      exact (List.append_nil _).symm
  | cons l labels ih =>
      obtain ⟨s', step, rest⟩ := Machine.run_cons_eq_some.mp reached
      rw [List.flatMap_cons, List.length_append] at room
      obtain ⟨grown, freed⟩ := inv.delivers two_le (by omega) step
      have length := congrArg List.length grown
      simp only [List.length_append] at length
      have later := ih (keeps_inv two_le few_unit inv (allowed_unit l) step) (by omega) rest
      rw [later, grown, List.flatMap_cons, List.append_assoc _ l.items]

/-- **With room for all, all are accepted.** -/
theorem Inv.accepted_of_pushes {s t : System Unit α C} (inv : s.Inv) (two_le : 2 ≤ C.size)
    {items : List α} (room : s.accepted.length + items.length ≤ s.freed + C.size)
    (pushes : s.Pushes items t) : t.accepted = s.accepted ++ items := by
  obtain ⟨idle, idle', labels, -, rfl, reached⟩ := pushes
  have emptyHand : (s.producers ()).inHand = [] := by rw [idle]; rfl
  have whole := inv.accepted_of_run two_le (by rw [emptyHand]; exact room) reached
  rw [emptyHand, idle'] at whole
  simpa [Producer.inHand, Producer.pusher] using whole

/-! ## The calls return -/

theorem Pushes.append {s t u : System Unit α C} {items later : List α} (first : s.Pushes items t)
    (second : t.Pushes later u) : s.Pushes (items ++ later) u := by
  obtain ⟨idle, -, labels, trying, rfl, reached⟩ := first
  obtain ⟨-, idle', labels', trying', rfl, reached'⟩ := second
  refine ⟨idle, idle', labels ++ labels', ?_, List.flatMap_append, ?_⟩
  · exact List.forall_mem_append.mpr ⟨trying, trying'⟩
  · exact Machine.run_append_eq_some.mpr ⟨t, reached, reached'⟩

/-- `try_produce` does not wait for anything. -/
theorem exists_pushes_one {s : System Unit α C} (idle : s.producers () = .idle) (item : α) :
    ∃ t, s.Pushes [item] t := by
  by_cases loaded : s.ring.loadSequence s.ring.writeIndex = s.ring.writeIndex
  · let labels : List (Label Unit α) := .tryProduce () item :: List.replicate 6 (.producer ())
    have runs : ((machine Unit α C).run s labels).map (·.producers ()) = some .idle := by
      simp [labels, machine, Machine.run, step, stepProducer, setProducer, idle, loaded]
    obtain ⟨t, reached, idle'⟩ := Option.map_eq_some_iff.mp runs
    exact ⟨t, idle, idle', labels, by simp [labels, Label.trying], rfl, reached⟩
  · let labels : List (Label Unit α) := .tryProduce () item :: List.replicate 3 (.producer ())
    have runs : ((machine Unit α C).run s labels).map (·.producers ()) = some .idle := by
      simp [labels, machine, Machine.run, step, stepProducer, setProducer, idle, loaded]
    obtain ⟨t, reached, idle'⟩ := Option.map_eq_some_iff.mp runs
    exact ⟨t, idle, idle', labels, by simp [labels, Label.trying], rfl, reached⟩

theorem exists_pushes {s : System Unit α C} (idle : s.producers () = .idle) (items : List α) :
    ∃ t, s.Pushes items t := by
  induction items generalizing s with
  | nil => exact ⟨s, idle, idle, [], nofun, rfl, rfl⟩
  | cons item items ih =>
      obtain ⟨t, first⟩ := exists_pushes_one idle item
      obtain ⟨u, later⟩ := ih first.2.1
      exact ⟨u, first.append later⟩

end System

end Tickscope.Memory
