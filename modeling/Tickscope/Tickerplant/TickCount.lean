import Tickscope.Tickerplant.Ticks

/-!
# The counter and the journal

`ticks_written_` is incremented for every consumed tick, `fwrite` is called for those that find the
journal open. `tickCount_iff` says that the counter is the number of journalled records exactly in
the runs whose ticks all find it open. A tick between its `fwrite` and its increment, which come in
this order, is in hand.
-/

namespace Tickscope.Tickerplant

open Tickscope.Lib Tickscope.Core

/-- The ticks past their `fwrite` and not yet counted. -/
def Pc.inHand {D : Type} (pc : Pc D) : Nat := pc.toCount.length - pc.toWrite.length

/-- `run()` is about to write a tick or to count one. -/
def Pc.hands {D : Type} : Pc D → Bool
  | .write .. => true
  | .count .. => true
  | _ => false

/-- It is a step of `run()`. -/
def Label.runs {D : Type} : Label D → Bool
  | .run .. => true
  | _ => false

theorem Loop.inHand_counted {D : Type} (loop : Loop) : (loop.counted : Pc D).inHand = 0 := by
  cases loop <;> rfl

namespace System

variable {D : Type}

/-! ## The records handed to `fwrite` -/

/-- The record that a step hands to `fwrite` on an open file. -/
def handed (s : System D) : Label D → List (Tick D)
  | .run _ _ =>
      match s.pc with
      | .write _ tick => if s.journals.journalFp.isSome then [tick] else []
      | _ => []
  | _ => []

/-- The other threads hand nothing over and count nothing. -/
theorem frame_of_step {cfg : Config} {s s' : System D} {l : Label D}
    (step : s.step cfg l = some s') (other : l.runs = false) :
    s'.ticksWritten = s.ticksWritten ∧ s'.journals.fwritten = s.journals.fwritten ∧
      s'.pc.inHand = s.pc.inHand := by
  cases l with
  | start =>
      simp only [System.step] at step
      split at step <;> cases step
      rename_i created
      exact ⟨rfl, rfl, by rw [created]; rfl⟩
  | stop | forceRotate =>
      cases step
      exact ⟨rfl, rfl, rfl⟩
  | spill n =>
      cases step
      exact ⟨rfl, s.journals.fwritten_spill n, rfl⟩
  | produce item | tryProduce item | producer =>
      obtain ⟨ring, -, rfl⟩ := of_ringStep step
      exact ⟨rfl, rfl, rfl⟩
  | run now opened => cases other

/-- `run()` hands over and counts nothing when it has no tick to write or to count. -/
theorem frame_of_stepRun {cfg : Config} {s s' : System D} {now : Int} {opened : Bool}
    (step : s.stepRun cfg now opened = some s') (idle : s.pc.hands = false) :
    s'.ticksWritten = s.ticksWritten ∧ s'.journals.fwritten = s.journals.fwritten ∧
      s'.pc.inHand = s.pc.inHand := by
  cases effect_of_stepRun step with
  | quiet same ring fwritten isOpen calling =>
      exact ⟨same.ticksWritten, fwritten, by rw [Pc.inHand, Pc.inHand, same.toCount, same.toWrite]⟩
  | ringMove m same move kept journals calling =>
      exact ⟨same.ticksWritten, congrArg _ journals,
        by rw [Pc.inHand, Pc.inHand, same.toCount, same.toWrite]⟩
  | consumed loop tick pc move after =>
      subst after
      exact ⟨rfl, rfl, by rw [pc]; rfl⟩
  | written loop tick pc after =>
      rw [pc] at idle
      cases idle
  | applied loop tick pc after =>
      subst after
      exact ⟨rfl, rfl, by rw [pc]; rfl⟩
  | counted loop tick pc after =>
      rw [pc] at idle
      cases idle

theorem fwrite_of_closed {js : Journals D} (closed : ¬ js.journalFp.isSome = true)
    (tick : Tick D) : js.fwrite tick = js := by
  rw [Option.not_isSome_iff_eq_none] at closed
  rw [Journals.fwrite, closed]

/-- A step adds to the records what it hands to `fwrite`. -/
theorem fwritten_of_step {cfg : Config} {s s' : System D} {l : Label D}
    (step : s.step cfg l = some s') :
    s'.journals.fwritten = s.journals.fwritten ++ s.handed l := by
  cases l with
  | run now opened =>
      cases state : s.pc with
      | write loop tick =>
          rw [handed, state]
          simp only [System.step, stepRun, state] at step
          cases step
          dsimp only
          split
          · rename_i isOpen
            exact Journals.fwritten_fwrite isOpen tick
          · rename_i closed
            rw [fwrite_of_closed closed, List.append_nil]
      | count loop tick =>
          rw [handed, state, List.append_nil]
          simp only [System.step, stepRun, state] at step
          cases step
          rfl
      | _ =>
          rw [handed, state, List.append_nil]
          exact (frame_of_stepRun step (by rw [state]; rfl)).2.1
  | _ => exact (frame_of_step step rfl).2.1.trans (List.append_nil _).symm

/-- The records in the files and in the buffer are the ones handed to `fwrite` so far. -/
theorem fwritten_run {cfg : Config} {s t : System D} {labels : List (Label D)}
    (reached : (machine D cfg).run s labels = some t) :
    t.journals.fwritten =
      s.journals.fwritten ++ (machine D cfg).trace handed s labels := by
  induction labels generalizing s with
  | nil =>
      cases reached
      exact (List.append_nil _).symm
  | cons l labels ih =>
      obtain ⟨s', step, rest⟩ := Machine.run_cons_eq_some.mp reached
      rw [ih rest, fwritten_of_step step, Machine.trace_cons step, List.append_assoc]

/-! ## The count -/

/-- The counter and the tick in hand are the records handed to `fwrite`. -/
def Tallied (s : System D) : Prop :=
  s.ticksWritten.toNat + s.pc.inHand = s.journals.fwritten.length

/-- A tick that is to be written finds the journal open, and one that is to be counted does not
make the counter wrap around. -/
def FindsOpen (s : System D) : Label D → Prop
  | .run _ _ =>
      match s.pc with
      | .write .. => s.journals.journalFp.isSome = true
      | .count .. => s.ticksWritten.toNat + 1 < 2 ^ 64
      | _ => True
  | _ => True

/-- The counter stays right in a step exactly if its tick finds the journal open. -/
theorem tallied_iff {cfg : Config} {s s' : System D} {l : Label D} (tallied : s.Tallied)
    (step : s.step cfg l = some s') : s'.Tallied ↔ s.FindsOpen l := by
  have framed : s'.ticksWritten = s.ticksWritten ∧ s'.journals.fwritten = s.journals.fwritten ∧
      s'.pc.inHand = s.pc.inHand → s'.Tallied := fun ⟨count, fwritten, inHand⟩ => by
    rw [Tallied, count, fwritten, inHand]
    exact tallied
  cases l with
  | run now opened =>
      cases state : s.pc with
      | write loop tick =>
          rw [FindsOpen, state]
          rw [Tallied, state] at tallied
          simp only [System.step, stepRun, state] at step
          cases step
          rw [Tallied]
          show s.ticksWritten.toNat + 1 = (s.journals.fwrite tick).fwritten.length ↔ _
          have before : s.ticksWritten.toNat + 0 = s.journals.fwritten.length := tallied
          by_cases isOpen : s.journals.journalFp.isSome = true
          · rw [Journals.fwritten_fwrite isOpen, List.length_append, List.length_singleton]
            exact iff_of_true (by omega) isOpen
          · rw [fwrite_of_closed isOpen]
            exact iff_of_false (by omega) isOpen
      | count loop tick =>
          rw [FindsOpen, state]
          rw [Tallied, state] at tallied
          simp only [System.step, stepRun, state] at step
          cases step
          rw [Tallied]
          show (s.ticksWritten + 1).toNat + (loop.counted : Pc D).inHand =
            s.journals.fwritten.length ↔ _
          have before : s.ticksWritten.toNat + 1 = s.journals.fwritten.length := tallied
          have fits := s.ticksWritten.isLt
          have next : (s.ticksWritten + 1).toNat = (s.ticksWritten.toNat + 1) % 2 ^ 64 :=
            BitVec.toNat_add ..
          rw [loop.inHand_counted, next]
          dsimp only
          omega
      | _ =>
          rw [FindsOpen, state]
          exact iff_of_true (framed (frame_of_stepRun step (by rw [state]; rfl))) True.intro
  | _ => exact iff_of_true (framed (frame_of_step step rfl)) True.intro

/-- **The tick count is the journal count** at all times of a run exactly if every tick of the run
finds the journal open. -/
theorem tickCount_iff [Zero D] (cfg : Config) (data : Fin ringCapacity.size → Tick D) (now : Int)
    (labels : List (Label D)) (s : System D)
    (reached : (machine D cfg).run (new cfg data now) labels = some s) :
    (∀ ks t, ks <+: labels → (machine D cfg).run (new cfg data now) ks = some t →
      t.ticksWritten.toNat + t.pc.inHand =
        ((machine D cfg).trace handed (new cfg data now) ks).length) ↔
      (machine D cfg).Along FindsOpen (new cfg data now) labels := by
  have everywhere : (machine D cfg).Along (fun _ _ => True) (new cfg data now) labels :=
    Machine.along_of_forall_mem (fun _ _ _ => True.intro) _
  have always : (machine D cfg).Always Tallied (new cfg data now) labels ↔
      (machine D cfg).Along FindsOpen (new cfg data now) labels := by
    refine Machine.always_iff_along (P := fun _ _ => True) (J := Tallied) ?_
      (fun _ tallied => tallied) ?_ rfl everywhere reached
    · exact fun t l t' tallied fileOpen step => (tallied_iff tallied step).mpr fileOpen.2
    · exact fun t l t' tallied _ step tallied' => (tallied_iff tallied step).mp tallied'
  rw [← always, Machine.always_iff_forall_prefix]
  refine forall₂_congr fun ks t => forall₂_congr fun _ run => ?_
  rw [Tallied, fwritten_run run]
  exact Iff.rfl

/-- A quote of a token without a name. -/
def quoteAt (price : Nat) : Tick Nat :=
  ⟨0, price, 1, 0, 0, 0, 0, ⟨List.replicate 79 0 ++ [0], rfl, by decide⟩⟩

/-- A quote is accepted, a rotation is forced whose `fopen` fails or not, and `run()` takes the
quote from the ring. -/
def rotatedRun (opened : Bool) : List (Label Nat) :=
  .start :: .tryProduce (quoteAt 7) :: List.replicate 6 .producer ++
    .forceRotate :: List.replicate 14 (.run 1000 opened)

/-- A new tickerplant with a 15-minute rotation. -/
def quarterHourly : System Nat :=
  new ⟨ascii "data", 15⟩ (fun _ => quoteAt 0) 0

theorem tickCount_rotated :
    (∃ s, (machine Nat ⟨ascii "data", 15⟩).run quarterHourly (rotatedRun true) = some s ∧
      s.ticksWritten = 1) ∧
    ((∀ ks t, ks <+: rotatedRun true →
        (machine Nat ⟨ascii "data", 15⟩).run quarterHourly ks = some t →
          t.ticksWritten.toNat + t.pc.inHand =
            ((machine Nat ⟨ascii "data", 15⟩).trace handed quarterHourly ks).length) ↔
      (machine Nat ⟨ascii "data", 15⟩).Along FindsOpen quarterHourly (rotatedRun true)) := by
  have ends : ((machine Nat ⟨ascii "data", 15⟩).run quarterHourly (rotatedRun true)).map
      (fun s => s.ticksWritten) = some 1 := rfl
  rcases Option.map_eq_some_iff.mp ends with ⟨s, reached, count⟩
  exact ⟨⟨s, reached, count⟩, tickCount_iff _ _ _ _ s reached⟩

/-- The quote is counted and in no file. -/
theorem tickCount_fails_without_journal :
    ∃ s, (machine Nat ⟨ascii "data", 15⟩).run quarterHourly (rotatedRun false) = some s ∧
      s.pc.inHand = 0 ∧ s.ticksWritten = 1 ∧
      (machine Nat ⟨ascii "data", 15⟩).trace handed quarterHourly (rotatedRun false) = [] := by
  have ends : ((machine Nat ⟨ascii "data", 15⟩).run quarterHourly (rotatedRun false)).map
      (fun s => (s.pc.inHand, s.ticksWritten, s.journals.fwritten)) = some (0, 1, []) := rfl
  rcases Option.map_eq_some_iff.mp ends with ⟨s, reached, eq⟩
  simp only [Prod.mk.injEq] at eq
  rcases eq with ⟨inHand, count, fwritten⟩
  refine ⟨s, reached, inHand, count, ?_⟩
  have whole := fwritten_run reached
  rw [fwritten] at whole
  exact whole.symm

end System

end Tickscope.Tickerplant
