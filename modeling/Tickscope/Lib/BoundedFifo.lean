import Tickscope.Lib.Machine

/-!
# A bounded queue between two threads

The specification of a bounded FIFO queue with one pusher and one popper that
run concurrently: each call takes effect at one instant between its call and its
return. `Fifo.events` is what the two callers see. A component refines the queue
when every trace of its own is a trace of `Fifo.machine`.

`Fifo.accepted_le` is the bound as the callers see it: a queue that nobody pops
accepts no more items than it has places.
-/

namespace Tickscope.Lib

/-- The pushing thread: outside a call, inside one, or about to return. -/
inductive Pusher (α : Type*) where
  | idle
  | called (item : α)
  | done (accepted : Bool)

/-- The popping thread. -/
inductive Popper (α : Type*) where
  | idle
  | called
  | done (out : Option α)

structure Fifo (α : Type*) where
  items : List α
  pusher : Pusher α
  popper : Popper α

namespace Fifo

variable {α : Type*}

/-- The steps of the two threads; `push` and `pop` are the instants of effect. -/
inductive Label (α : Type*) where
  | callPush (item : α)
  | push
  | returnPush
  | callPop
  | pop
  | returnPop

/-- What the callers see. -/
inductive Event (α : Type*) where
  | callPush (item : α)
  | returnPush (accepted : Bool)
  | callPop
  | returnPop (out : Option α)

def new : Fifo α := ⟨[], .idle, .idle⟩

def step (bound : Nat) (q : Fifo α) : Label α → Option (Fifo α)
  | .callPush item =>
      match q.pusher with
      | .idle => some { q with pusher := .called item }
      | _ => none
  | .push =>
      match q.pusher with
      | .called item =>
          if q.items.length < bound then
            some { q with items := q.items ++ [item], pusher := .done true }
          else some { q with pusher := .done false }
      | _ => none
  | .returnPush =>
      match q.pusher with
      | .done _ => some { q with pusher := .idle }
      | _ => none
  | .callPop =>
      match q.popper with
      | .idle => some { q with popper := .called }
      | _ => none
  | .pop =>
      match q.popper with
      | .called =>
          match q.items with
          | [] => some { q with popper := .done none }
          | item :: rest => some { q with items := rest, popper := .done (some item) }
      | _ => none
  | .returnPop =>
      match q.popper with
      | .done _ => some { q with popper := .idle }
      | _ => none

/-- The bounded queue with `bound` places. -/
def machine (α : Type*) (bound : Nat) : Machine (Fifo α) (Label α) := ⟨step bound⟩

def events (q : Fifo α) : Label α → List (Event α)
  | .callPush item => [.callPush item]
  | .returnPush =>
      match q.pusher with
      | .done accepted => [.returnPush accepted]
      | _ => []
  | .callPop => [.callPop]
  | .returnPop =>
      match q.popper with
      | .done out => [.returnPop out]
      | _ => []
  | _ => []

/-! ## The bound as the callers see it -/

def Event.accepts : Event α → Bool
  | .returnPush accepted => accepted
  | _ => false

def Event.asks : Event α → Bool
  | .callPop => true
  | _ => false

/-- The items of a push that has taken effect and not returned. -/
def unreported : Pusher α → Nat
  | .done true => 1
  | _ => 0

/-- The calls of pop that have not taken effect. -/
def waiting : Popper α → Nat
  | .called => 1
  | _ => 0

/-- One step of the balance between accepted items, asked items and items in the queue. -/
theorem balance_step {bound : Nat} {q q' : Fifo α} {l : Label α} (step : step bound q l = some q') :
    (q.events l).countP Event.accepts + unreported q'.pusher + waiting q'.popper +
        q.items.length ≤
      q'.items.length + (q.events l).countP Event.asks + unreported q.pusher +
        waiting q.popper := by
  obtain ⟨items, pusher, popper⟩ := q
  cases l with
  | callPush item =>
      cases pusher <;> cases step
      simp [events, unreported, Event.accepts, Event.asks]
      omega
  | push =>
      cases pusher with
      | idle | done => cases step
      | called item =>
          simp only [Fifo.step] at step
          split at step <;> cases step
          · simp only [events, unreported, List.countP_nil, List.length_append,
              List.length_singleton]
            omega
          · simp only [events, unreported, List.countP_nil]
            omega
  | returnPush =>
      cases pusher with
      | idle | called => cases step
      | done accepted =>
          cases step
          cases accepted <;> simp [events, unreported, Event.accepts, Event.asks] <;> omega
  | callPop =>
      cases popper <;> cases step
      simp [events, waiting, Event.accepts, Event.asks]
      omega
  | pop =>
      cases popper with
      | idle | done => cases step
      | called =>
          cases items <;> cases step
          · simp [events, waiting]
          · simp only [events, waiting, List.countP_nil, List.length_cons]
            omega
  | returnPop =>
      cases popper <;> cases step
      simp [events, waiting, Event.accepts, Event.asks]
      omega

theorem balance {bound : Nat} {q q' : Fifo α} {ls : List (Label α)}
    (reached : (machine α bound).run q ls = some q') :
    ((machine α bound).trace events q ls).countP Event.accepts + unreported q'.pusher +
        waiting q'.popper + q.items.length ≤
      q'.items.length + ((machine α bound).trace events q ls).countP Event.asks +
        unreported q.pusher + waiting q.popper := by
  induction ls generalizing q with
  | nil =>
      cases reached
      simp only [Machine.trace_nil, List.countP_nil]
      omega
  | cons l ls ih =>
      obtain ⟨q₁, step, rest⟩ := Machine.run_cons_eq_some.mp reached
      have first := balance_step step
      have tail := ih rest
      rw [Machine.trace_cons step, List.countP_append, List.countP_append]
      omega

theorem keeps_length_le (bound : Nat) :
    (machine α bound).Keeps (fun _ _ => True) fun q => q.items.length ≤ bound := by
  intro q l q' le _ step
  have step : Fifo.step bound q l = some q' := step
  cases l with
  | push =>
      simp only [Fifo.step] at step
      split at step
      · split at step <;> cases step
        · rw [List.length_append, List.length_singleton]
          omega
        · exact le
      · cases step
  | pop =>
      simp only [Fifo.step] at step
      split at step
      · split at step <;> cases step
        · exact le
        · rename_i items
          rw [items, List.length_cons] at le
          exact Nat.le_of_succ_le le
      · cases step
  | callPush | returnPush | callPop | returnPop =>
      simp only [Fifo.step] at step
      split at step <;> cases step
      exact le

/-- **The bound as the callers see it.** The pushes that have returned `true` exceed the pops
that have been called by at most `bound`. -/
theorem accepted_le {bound : Nat} {q : Fifo α} {ls : List (Label α)}
    (reached : (machine α bound).run new ls = some q) :
    ((machine α bound).trace events new ls).countP Event.accepts ≤
      bound + ((machine α bound).trace events new ls).countP Event.asks := by
  have total := balance reached
  have start : (new : Fifo α).items.length ≤ bound := Nat.zero_le bound
  have le : q.items.length ≤ bound :=
    (keeps_length_le bound).run start
      (Machine.along_of_forall_mem (fun _ _ _ => True.intro) _) reached
  have empty : (new : Fifo α).items.length + unreported (new : Fifo α).pusher +
      waiting (new : Fifo α).popper = 0 := rfl
  omega

end Fifo

end Tickscope.Lib
