import Tickscope.Memory.RingAnswers
import Tickscope.Tickerplant.Ticks

/-!
# What the feed handler is told

Whatever `run()` does, the accepted ticks are those for which `try_produce` has returned true.
-/

namespace Tickscope.Tickerplant

open Tickscope.Lib Tickscope.Core Tickscope.Memory

variable {D : Type}

/-- The tick of a call. -/
def Label.offered : Label D → Option (Tick D)
  | .produce item | .tryProduce item => some item
  | _ => none

namespace System

/-- The value that a call returns in this step. -/
def answers (s : System D) : Label D → List Bool
  | .producer => s.ring.answers (.producer ())
  | _ => []

/-- A step of the ring's caller, as the ring has it. -/
inductive OnRing (s s' : System D) (l : Label D) : Prop where
  | still (same : s'.ring = s.ring) (offered : l.offered = none) (answers : s.answers l = [])
  | move (m : Memory.Label Unit (Tick D)) (step : s.ring.step m = some s'.ring)
      (offered : m.offered = l.offered) (answers : s.ring.answers m = s.answers l)

theorem onRing_of_stepRun {cfg : Config} {s s' : System D} {now : Int} {opened : Bool}
    (step : s.stepRun cfg now opened = some s') : OnRing s s' (.run now opened) := by
  unfold stepRun at step
  cases state : s.pc with
  | created | exited =>
      rw [state] at step
      cases step
  | consume loop =>
      rw [state] at step
      obtain ⟨ring, move, rfl⟩ := of_ringStep step
      exact .move .consume move rfl rfl
  | consuming loop =>
      rw [state] at step
      dsimp only at step
      split at step <;> obtain ⟨ring, move, rfl⟩ := of_ringStep step <;>
        exact .move .consumer move rfl rfl
  | clock =>
      rw [state] at step
      dsimp only at step
      split at step <;> cases step <;> exact .still rfl rfl rfl
  | _ =>
      rw [state] at step
      cases step
      exact .still rfl rfl rfl

theorem onRing_of_step {cfg : Config} {s s' : System D} {l : Label D}
    (step : s.step cfg l = some s') : OnRing s s' l := by
  cases l with
  | start =>
      simp only [System.step] at step
      split at step <;> cases step
      exact .still rfl rfl rfl
  | stop | forceRotate | spill =>
      cases step
      exact .still rfl rfl rfl
  | produce item =>
      obtain ⟨ring, move, rfl⟩ := of_ringStep step
      exact .move (.produce () item) move rfl rfl
  | tryProduce item =>
      obtain ⟨ring, move, rfl⟩ := of_ringStep step
      exact .move (.tryProduce () item) move rfl rfl
  | producer =>
      obtain ⟨ring, move, rfl⟩ := of_ringStep step
      exact .move (.producer ()) move rfl rfl
  | run now opened => exact onRing_of_stepRun step

theorem called_of_step {cfg : Config} {s s' : System D} {l : Label D}
    (step : s.step cfg l = some s') : s'.ring.called = s.ring.called ++ l.offered.toList := by
  cases onRing_of_step step with
  | still same offered =>
      rw [same, offered]
      exact (List.append_nil _).symm
  | move m move offered => rw [Memory.System.called_of_step move, offered]

/-- The calls of a run are its labels'. -/
theorem called_of_run {cfg : Config} {s t : System D} {labels : List (Label D)}
    (reached : (machine D cfg).run s labels = some t) :
    t.ring.called = s.ring.called ++ labels.filterMap Label.offered := by
  induction labels generalizing s with
  | nil =>
      cases reached
      exact (List.append_nil _).symm
  | cons l labels ih =>
      obtain ⟨s', step, rest⟩ := Machine.run_cons_eq_some.mp reached
      rw [ih rest, called_of_step step, List.append_assoc, List.filterMap_cons]
      cases l.offered <;> rfl

theorem records_answered (cfg : Config) :
    (machine D cfg).Records answers fun s told => s.ring.Inv ∧ s.ring.Answered told := by
  rintro s told l s' ⟨inv, answered⟩ step
  cases onRing_of_step step with
  | still same _ none =>
      rw [same, none, List.append_nil]
      exact ⟨inv, answered⟩
  | move m move _ one =>
      rw [← one]
      exact ⟨ring_inv_of_step inv move, Memory.System.answered_of_step inv answered move⟩

/-- **Every run** of a new tickerplant. -/
theorem answered_of_run [Zero D] {cfg : Config} {data : Fin ringCapacity.size → Tick D} {now : Int}
    {labels : List (Label D)} {t : System D}
    (reached : (machine D cfg).run (new cfg data now) labels = some t) :
    t.ring.called = labels.filterMap Label.offered ∧
      t.ring.Answered ((machine D cfg).trace answers (new cfg data now) labels) := by
  have start : (new cfg data now).ring.Inv ∧ (new cfg data now).ring.Answered [] :=
    ⟨Memory.System.new_inv data, rfl, rfl⟩
  exact ⟨called_of_run reached, ((records_answered cfg).run start reached).2⟩

end System

end Tickscope.Tickerplant
