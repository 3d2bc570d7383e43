import Tickscope.Memory.RingFifo

/-!
# What the producer is told

The accepted items are those whose call has returned true, in the order of the calls
(`answered_of_step`): a caller knows from the answers what has become of its items.
-/

namespace Tickscope.Memory

open Tickscope.Lib RingBuffer

/-- The items that were accepted, by the answers. -/
def chosen {α : Type} (items : List α) (answers : List Bool) : List α :=
  (items.zip answers).filterMap fun answer => if answer.2 then some answer.1 else none

theorem chosen_append {α : Type} {items : List α} {answers : List Bool}
    (len : items.length = answers.length) (item : α) (ok : Bool) :
    chosen (items ++ [item]) (answers ++ [ok]) =
      chosen items answers ++ if ok then [item] else [] := by
  rw [chosen, List.zip_append len, List.filterMap_append]
  cases ok <;> rfl

theorem chosen_sublist {α : Type} (items : List α) (answers : List Bool) :
    (chosen items answers).Sublist items := by
  induction items generalizing answers with
  | nil => exact List.Sublist.slnil
  | cons item items ih =>
      cases answers with
      | nil => exact List.nil_sublist _
      | cons ok answers =>
          cases ok with
          | false => exact (ih answers).cons item
          | true => exact (ih answers).cons_cons item

/-- The item of a call. -/
def Label.offered {ι α : Type} : Label ι α → Option α
  | .produce _ item | .tryProduce _ item => some item
  | _ => none

namespace System

variable {α : Type} {C : Capacity}

/-- The items of all calls. -/
def called (s : System Unit α C) : List α := s.calls.map Prod.snd

/-- The value that a call returns in this step. -/
def answers (s : System Unit α C) : Label Unit α → List Bool
  | .producer p =>
      match s.producers p with
      | .done ok => [ok]
      | _ => []
  | _ => []

/-- What has been accepted is what the answers say, up to the call that has not returned. -/
def Answered (s : System Unit α C) (told : List Bool) : Prop :=
  match (s.producers ()).pusher with
  | .idle => s.called.length = told.length ∧ s.accepted = chosen s.called told
  | .called item => ∃ before, s.called = before ++ [item] ∧ before.length = told.length ∧
      s.accepted = chosen before told
  | .done ok => ∃ before item, s.called = before ++ [item] ∧ before.length = told.length ∧
      s.accepted = chosen before told ++ if ok then [item] else []

/-- A step that calls nothing and accepts nothing. -/
theorem Answered.frame {s s' : System Unit α C} {told : List Bool} (answered : s.Answered told)
    (called : s'.calls = s.calls) (accepted : s'.accepted = s.accepted)
    (pusher : (s'.producers ()).pusher = (s.producers ()).pusher) : s'.Answered told := by
  unfold Answered System.called at answered ⊢
  rw [pusher, called, accepted]
  exact answered

theorem answered_of_call {s s' : System Unit α C} {told : List Bool} (answered : s.Answered told)
    (idle : s.producers () = .idle) {item : α} (calls : s'.calls = s.calls ++ [((), item)])
    (accepted : s'.accepted = s.accepted)
    (pusher : (s'.producers ()).pusher = .called item) : s'.Answered told := by
  unfold Answered at answered ⊢
  rw [idle] at answered
  rw [pusher]
  refine ⟨s.called, ?_, answered.1, accepted.trans answered.2⟩
  rw [called, calls, List.map_append]
  rfl

theorem answered_of_stepProducer {s s' : System Unit α C} {told : List Bool} (inv : s.Inv)
    (answered : s.Answered told) (step : s.stepProducer () = some s') :
    s'.Answered (told ++ s.answers (.producer ())) := by
  have quiet (none : s.answers (.producer ()) = []) (called : s'.calls = s.calls)
      (accepted : s'.accepted = s.accepted)
      (pusher : (s'.producers ()).pusher = (s.producers ()).pusher) :
      s'.Answered (told ++ s.answers (.producer ())) := by
    rw [none, List.append_nil]
    exact answered.frame called accepted pusher
  cases produces_of_stepProducer step with
  | claim state | tryClaim state =>
      exact quiet (by simp only [answers, state]) rfl (accepted_of_claim rfl (by rw [state]; rfl) rfl)
        (by rw [state]; rfl)
  | wait state =>
      exact quiet (by simp only [answers, state]) rfl rfl rfl
  | enter state | tryLoad state | free state | copy state =>
      exact quiet (by simp only [answers, state]) rfl (accepted_of_quiet rfl (by rw [state]; rfl))
        (by rw [state]; rfl)
  | full state taken =>
      have none : s.answers (.producer ()) = [] := by simp only [answers, state]
      have same : (s.setProducer () (.done false)).accepted = s.accepted :=
        accepted_of_quiet rfl (by rw [state]; rfl)
      unfold Answered at answered ⊢
      rw [state] at answered
      obtain ⟨before, calls, len, accepted⟩ := answered
      rw [none, List.append_nil]
      exact ⟨before, _, calls, len, by rw [same, accepted]; exact (List.append_nil _).symm⟩
  | @publish item pos state =>
      have none : s.answers (.producer ()) = [] := by simp only [answers, state]
      have published := (inv.publish_accepted state).1
      have outside {s' : System Unit α C} (claims : s'.claims = s.claims)
          (done : s'.producers () = .done true) : s'.accepted = s.accepted ++ [item] := by
        rw [accepted_of_outside (by rw [done]; rfl), claims, published]
      unfold Answered at answered ⊢
      rw [state] at answered
      obtain ⟨before, calls, len, accepted⟩ := answered
      rw [none, List.append_nil]
      refine ⟨before, item, calls, len, (outside ?_ ?_).trans ?_⟩
      · rfl
      · rfl
      · rw [accepted]
        rfl
  | @done ok state =>
      have one : s.answers (.producer ()) = [ok] := by simp only [answers, state]
      have same : (s.setProducer () .idle).accepted = s.accepted :=
        accepted_of_quiet rfl (by rw [state]; rfl)
      unfold Answered at answered ⊢
      rw [state] at answered
      obtain ⟨before, item, calls, len, accepted⟩ := answered
      have called : (s.setProducer () .idle).called = before ++ [item] := calls
      rw [one]
      show _ ∧ _
      rw [called, same, accepted, chosen_append len, List.length_append, List.length_append, len]
      exact ⟨rfl, rfl⟩

/-- **One step of either thread.** -/
theorem answered_of_step {s s' : System Unit α C} {told : List Bool} (inv : s.Inv)
    (answered : s.Answered told) {l : Label Unit α} (step : s.step l = some s') :
    s'.Answered (told ++ s.answers l) := by
  cases l with
  | produce p item =>
      obtain ⟨idle, rfl⟩ := of_step_produce step
      show Answered _ (told ++ [])
      rw [List.append_nil]
      exact answered_of_call answered idle rfl (accepted_of_quiet rfl (by rw [idle]; rfl)) rfl
  | tryProduce p item =>
      obtain ⟨idle, rfl⟩ := of_step_tryProduce step
      show Answered _ (told ++ [])
      rw [List.append_nil]
      exact answered_of_call answered idle rfl (accepted_of_quiet rfl (by rw [idle]; rfl)) rfl
  | producer p => exact answered_of_stepProducer inv answered step
  | consume =>
      obtain ⟨idle, rfl⟩ := of_step_consume step
      show Answered _ (told ++ [])
      rw [List.append_nil]
      exact answered.frame rfl rfl rfl
  | consumer =>
      have accepted := accepted_stepConsumer step
      have kept : s'.calls = s.calls ∧ s'.producers = s.producers := by
        cases consumes_of_stepConsumer step <;> exact ⟨rfl, rfl⟩
      show Answered _ (told ++ [])
      rw [List.append_nil]
      exact answered.frame kept.1 accepted (by rw [kept.2])

theorem called_of_step {s s' : System Unit α C} {l : Label Unit α} (step : s.step l = some s') :
    s'.called = s.called ++ l.offered.toList := by
  have unchanged (kept : s'.calls = s.calls) : s'.called = s.called ++ [] := by
    rw [called, kept, List.append_nil]
    rfl
  cases l with
  | produce p item =>
      obtain ⟨-, rfl⟩ := of_step_produce step
      exact List.map_append
  | tryProduce p item =>
      obtain ⟨-, rfl⟩ := of_step_tryProduce step
      exact List.map_append
  | producer p =>
      refine unchanged ?_
      cases produces_of_stepProducer step <;> rfl
  | consume =>
      obtain ⟨-, rfl⟩ := of_step_consume step
      exact unchanged rfl
  | consumer =>
      refine unchanged ?_
      cases consumes_of_stepConsumer step <;> rfl

end System

end Tickscope.Memory
