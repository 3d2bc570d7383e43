import Tickscope.Tickerplant.Run

/-!
# From the ring to the journal and the book

Every tick that `consume` returns is written, applied and counted, in this order,
before `run()` consumes the next. `Effect` lists what one step of any thread can
do to a tick. `Inv` says how far `run()` is with the last one; it holds of every
interleaving, whatever the clock reads and the files do. `Journaled` adds that no
record is lost while every `fopen` succeeds.
-/

namespace Tickscope.Tickerplant

open Tickscope.Lib Tickscope.Core Tickscope.Rdb

/-! ## The journal files -/

namespace Journals

variable {D : Type}

/-- The records handed to `fwrite`, on disk or on the way. -/
def fwritten (js : Journals D) : List (Tick D) :=
  js.disk.map Prod.snd ++ (js.journalFp.map Journal.buffered).getD []

theorem fwritten_of_closed {js : Journals D} (closed : js.journalFp = none) :
    js.fwritten = js.disk.map Prod.snd := by
  rw [fwritten, closed]
  exact List.append_nil _

theorem map_snd_path (path : Str) (ticks : List (Tick D)) :
    (ticks.map fun tick => (path, tick)).map Prod.snd = ticks := by
  rw [List.map_map]
  exact List.map_id _

@[simp] theorem fwritten_spill (js : Journals D) (n : Nat) :
    (js.spill n).fwritten = js.fwritten := by
  unfold spill
  split
  · rfl
  · rename_i journal fp
    rw [fwritten, fwritten, fp, List.map_append, map_snd_path, List.append_assoc]
    exact congrArg _ (List.take_append_drop n journal.buffered)

@[simp] theorem fwritten_fflush (js : Journals D) : js.fflush.fwritten = js.fwritten := by
  unfold fflush
  split
  · rfl
  · rename_i journal fp
    rw [fwritten, fwritten, fp, List.map_append, map_snd_path]
    exact List.append_nil _

/-- After a flush the files hold every record. -/
theorem disk_fflush (js : Journals D) : js.fflush.disk.map Prod.snd = js.fwritten := by
  unfold fflush
  split
  · rename_i closed
    rw [fwritten_of_closed closed]
  · rename_i journal fp
    rw [fwritten, fp, List.map_append, map_snd_path]
    rfl

@[simp] theorem fwritten_fclose (js : Journals D) : js.fclose.fwritten = js.fwritten := by
  rw [fwritten_of_closed rfl]
  exact js.disk_fflush

/-- A file that is opened after the last one is closed loses nothing. -/
theorem fwritten_fopen {js : Journals D} (closed : js.journalFp = none) (path : Str)
    (opened : Bool) : (js.fopen path opened).fwritten = js.fwritten := by
  rw [fwritten_of_closed closed]
  cases opened <;> exact List.append_nil _

@[simp] theorem fwritten_rotate (js : Journals D) (cfg : Config) (now : Int) (opened : Bool) :
    (js.rotate cfg now opened).fwritten = js.fwritten := by
  rw [rotate, fwritten_fopen rfl]
  exact js.fwritten_fclose

@[simp] theorem fwritten_rotateForced (js : Journals D) (cfg : Config) (opened : Bool) :
    (js.rotateForced cfg opened).fwritten = js.fwritten := by
  rw [rotateForced]
  rw [fwritten_fopen rfl, fwritten_fclose]
  rfl

@[simp] theorem fwritten_maintain (js : Journals D) (cfg : Config) (now : Int) (opened : Bool) :
    (js.maintain cfg now opened).fwritten = js.fwritten := by
  unfold maintain
  split
  · rw [fwritten_rotate, fwritten_fflush]
  · exact js.fwritten_fflush

theorem fwritten_fwrite {js : Journals D} (isOpen : js.journalFp.isSome = true) (tick : Tick D) :
    (js.fwrite tick).fwritten = js.fwritten ++ [tick] := by
  rcases Option.isSome_iff_exists.mp isOpen with ⟨journal, fp⟩
  rw [fwrite, fp, fwritten, fwritten, fp]
  exact (List.append_assoc ..).symm

@[simp] theorem isOpen_spill (js : Journals D) (n : Nat) :
    (js.spill n).journalFp.isSome = js.journalFp.isSome := by
  unfold spill
  split
  · rfl
  · rename_i journal fp
    rw [fp]
    rfl

@[simp] theorem isOpen_fflush (js : Journals D) :
    js.fflush.journalFp.isSome = js.journalFp.isSome := by
  unfold fflush
  split
  · rfl
  · rename_i journal fp
    rw [fp]
    rfl

@[simp] theorem isOpen_fwrite (js : Journals D) (tick : Tick D) :
    (js.fwrite tick).journalFp.isSome = js.journalFp.isSome := by
  unfold fwrite
  split
  · rfl
  · rename_i journal fp
    rw [fp]
    rfl

theorem isOpen_maintain {js : Journals D} (isOpen : js.journalFp.isSome = true) (cfg : Config)
    (now : Int) : (js.maintain cfg now true).journalFp.isSome = true := by
  unfold maintain
  split
  · rfl
  · rw [isOpen_fflush, isOpen]

end Journals

/-! ## How far `run()` is with a tick -/

namespace Pc

variable {D : Type}

/-- The tick that has been consumed and not yet written. -/
def toWrite : Pc D → List (Tick D)
  | .write _ tick => [tick]
  | _ => []

/-- The tick that has been consumed and not yet applied to the book. -/
def toApply : Pc D → List (Tick D)
  | .write _ tick => [tick]
  | .apply _ tick => [tick]
  | _ => []

/-- The tick that has been consumed and not yet counted. -/
def toCount : Pc D → List (Tick D)
  | .write _ tick => [tick]
  | .apply _ tick => [tick]
  | .count _ tick => [tick]
  | _ => []

/-- `run()` has no tick in hand. -/
def isBetween : Pc D → Bool
  | .write .. => false
  | .apply .. => false
  | .count .. => false
  | _ => true

theorem nothing_of_isBetween {pc : Pc D} (between : pc.isBetween = true) :
    pc.toWrite = [] ∧ pc.toApply = [] ∧ pc.toCount = [] := by
  cases pc with
  | write | apply | count => cases between
  | _ => exact ⟨rfl, rfl, rfl⟩

/-- `run()` is inside `consume`. -/
def isConsuming : Pc D → Bool
  | .consuming _ => true
  | _ => false

end Pc

theorem Loop.isBetween_counted {D : Type} (loop : Loop) :
    (loop.counted : Pc D).isBetween = true ∧ (loop.counted : Pc D).isConsuming = false := by
  cases loop <;> exact ⟨rfl, rfl⟩

theorem Loop.isBetween_consumed_none {D : Type} (loop : Loop) :
    (loop.consumed none : Pc D).isBetween = true := by
  cases loop <;> rfl

namespace System

variable {D : Type}

/-! ## What a step does to a tick -/

/-- `run()` is as far with its tick as before. -/
structure SameTick (s s' : System D) : Prop where
  book : s'.book = s.book
  ticksWritten : s'.ticksWritten = s.ticksWritten
  toWrite : s'.pc.toWrite = s.pc.toWrite
  toApply : s'.pc.toApply = s.pc.toApply
  toCount : s'.pc.toCount = s.pc.toCount

theorem SameTick.of_between {s s' : System D} (book : s'.book = s.book)
    (ticksWritten : s'.ticksWritten = s.ticksWritten) (before : s.pc.isBetween = true)
    (after : s'.pc.isBetween = true) : SameTick s s' := by
  rcases Pc.nothing_of_isBetween before with ⟨w, a, c⟩
  rcases Pc.nothing_of_isBetween after with ⟨w', a', c'⟩
  exact ⟨book, ticksWritten, w'.trans w.symm, a'.trans a.symm, c'.trans c.symm⟩

/-- Everything a step can do to a tick. -/
inductive Effect (s s' : System D) (opened : Bool) : Prop where
  | quiet (same : SameTick s s') (ring : s'.ring = s.ring)
      (fwritten : s'.journals.fwritten = s.journals.fwritten)
      (isOpen : opened = true → s.journals.journalFp.isSome = true →
        s'.journals.journalFp.isSome = true)
      (calling : s'.pc.isConsuming = false → s.pc.isConsuming = false)
  | ringMove (m : Memory.Label Unit (Tick D)) (same : SameTick s s')
      (move : s.ring.step m = some s'.ring) (returned : s'.ring.returned = s.ring.returned)
      (journals : s'.journals = s.journals)
      (calling : s'.pc.isConsuming = false → s'.ring.consumer = .idle ∨
        s'.ring.consumer = s.ring.consumer ∧ s.pc.isConsuming = false)
  | consumed (loop : Loop) (tick : Tick D) (pc : s.pc = .consuming loop)
      (move : s.ring.step .consumer = some s'.ring)
      (after : s' = { s with
        ring := { s.ring with consumer := .idle, returned := s.ring.returned ++ [tick] }
        pc := .write loop tick })
  | written (loop : Loop) (tick : Tick D) (pc : s.pc = .write loop tick)
      (after : s' = { s with journals := s.journals.fwrite tick, pc := .apply loop tick })
  | applied (loop : Loop) (tick : Tick D) (pc : s.pc = .apply loop tick)
      (after : s' = { s with
        book := if tick.eventType = 0 then s.book.applyTick tick else s.book
        pc := .count loop tick })
  | counted (loop : Loop) (tick : Tick D) (pc : s.pc = .count loop tick)
      (after : s' = { s with ticksWritten := s.ticksWritten + 1, pc := loop.counted })

/-- `run()` moves between two ticks, outside `consume`. -/
theorem Effect.of_between {s s' : System D} {opened : Bool} (book : s'.book = s.book)
    (ticksWritten : s'.ticksWritten = s.ticksWritten) (ring : s'.ring = s.ring)
    (before : s.pc.isBetween = true ∧ s.pc.isConsuming = false)
    (after : s'.pc.isBetween = true)
    (fwritten : s'.journals.fwritten = s.journals.fwritten)
    (isOpen : opened = true → s.journals.journalFp.isSome = true →
      s'.journals.journalFp.isSome = true) : Effect s s' opened :=
  .quiet (.of_between book ticksWritten before.1 after) ring fwritten isOpen fun _ => before.2

theorem of_ringStep {s s' : System D} {l : Memory.Label Unit (Tick D)} {pc : Pc D}
    (step : s.ringStep l pc = some s') :
    ∃ ring, s.ring.step l = some ring ∧ s' = { s with ring := ring, pc := pc } := by
  rcases Option.map_eq_some_iff.mp step with ⟨ring, move, eq⟩
  exact ⟨ring, move, eq.symm⟩

/-- A step of the producer. -/
theorem effect_of_producer {s s' : System D} {opened : Bool} {m : Memory.Label Unit (Tick D)}
    (step : s.ringStep m s.pc = some s')
    (frame : ∀ ring, s.ring.step m = some ring →
      ring.consumer = s.ring.consumer ∧ ring.returned = s.ring.returned) :
    Effect s s' opened := by
  obtain ⟨ring, move, rfl⟩ := of_ringStep step
  rcases frame ring move with ⟨consumer, returned⟩
  exact .ringMove m ⟨rfl, rfl, rfl, rfl, rfl⟩ move returned rfl
    fun outside => .inr ⟨consumer, outside⟩

/-- A step of `run()` inside `consume`. -/
theorem effect_of_consuming {s s' : System D} {opened : Bool} {loop : Loop}
    (state : s.pc = .consuming loop)
    (step : (match s.ring.consumer with
      | .done out => s.ringStep .consumer (loop.consumed out)
      | _ => s.ringStep .consumer (.consuming loop)) = some s') : Effect s s' opened := by
  split at step
  · rename_i out done
    obtain ⟨ring, move, rfl⟩ := of_ringStep step
    rcases Memory.System.stepConsumer_returned move with ⟨out', done', rfl⟩ | ⟨other, -⟩
    · cases done.symm.trans done'
      cases out with
      | none =>
          exact .ringMove .consumer
            (.of_between rfl rfl (by rw [state]; rfl) loop.isBetween_consumed_none) move
            (List.append_nil _) rfl fun _ => .inl rfl
      | some tick => exact .consumed loop tick state move rfl
    · exact (other out done).elim
  · rename_i other
    obtain ⟨ring, move, rfl⟩ := of_ringStep step
    rcases Memory.System.stepConsumer_returned move with ⟨out, done, -⟩ | ⟨-, returned⟩
    · exact (other out done).elim
    · exact .ringMove .consumer (.of_between rfl rfl (by rw [state]; rfl) rfl) move returned rfl nofun

theorem effect_of_stepRun {cfg : Config} {s s' : System D} {now : Int} {opened : Bool}
    (step : s.stepRun cfg now opened = some s') : Effect s s' opened := by
  unfold stepRun at step
  cases state : s.pc with
  | created | exited =>
      rw [state] at step
      cases step
  | enter | clearForce =>
      rw [state] at step
      cases step
      exact .of_between rfl rfl rfl (by rw [state]; exact ⟨rfl, rfl⟩) rfl rfl fun _ isOpen => isOpen
  | checkRunning =>
      rw [state] at step
      cases step
      refine .of_between rfl rfl rfl (by rw [state]; exact ⟨rfl, rfl⟩) ?_ rfl fun _ isOpen => isOpen
      cases s.running <;> rfl
  | checkForce =>
      rw [state] at step
      cases step
      refine .of_between rfl rfl rfl (by rw [state]; exact ⟨rfl, rfl⟩) ?_ rfl fun _ isOpen => isOpen
      cases s.forceRotate <;> rfl
  | forceRotate =>
      rw [state] at step
      cases step
      exact .of_between rfl rfl rfl (by rw [state]; exact ⟨rfl, rfl⟩) rfl
        (s.journals.fwritten_rotateForced cfg opened) fun opened _ => by subst opened; rfl
  | consume loop =>
      rw [state] at step
      obtain ⟨ring, move, rfl⟩ := of_ringStep step
      obtain ⟨-, rfl⟩ := Memory.System.of_step_consume move
      exact .ringMove .consume (.of_between rfl rfl (by rw [state]; rfl) rfl) move rfl rfl nofun
  | consuming loop =>
      rw [state] at step
      exact effect_of_consuming state step
  | write loop tick =>
      rw [state] at step
      exact .written loop tick state (Option.some.inj step).symm
  | apply loop tick =>
      rw [state] at step
      exact .applied loop tick state (Option.some.inj step).symm
  | count loop tick =>
      rw [state] at step
      exact .counted loop tick state (Option.some.inj step).symm
  | maintain =>
      rw [state] at step
      cases step
      refine .of_between rfl rfl rfl (by rw [state]; exact ⟨rfl, rfl⟩) ?_ rfl fun _ isOpen => isOpen
      dsimp only
      split <;> rfl
  | clock =>
      rw [state] at step
      dsimp only at step
      split at step <;> cases step
      · exact .of_between rfl rfl rfl (by rw [state]; exact ⟨rfl, rfl⟩) rfl rfl
          fun _ isOpen => isOpen
      · refine .of_between rfl rfl rfl (by rw [state]; exact ⟨rfl, rfl⟩) rfl
          (s.journals.fwritten_maintain cfg now opened) fun opened isOpen => ?_
        subst opened
        exact Journals.isOpen_maintain isOpen cfg now
  | finalFlush =>
      rw [state] at step
      cases step
      exact .of_between rfl rfl rfl (by rw [state]; exact ⟨rfl, rfl⟩) rfl
        s.journals.fwritten_fflush fun _ isOpen => s.journals.isOpen_fflush.trans isOpen

/-- **What one step of any thread does to a tick.** -/
theorem effect_of_step {cfg : Config} {s s' : System D} {l : Label D}
    (step : s.step cfg l = some s') : Effect s s' l.opened := by
  cases l with
  | start =>
      simp only [System.step] at step
      split at step <;> cases step
      rename_i state
      exact .of_between rfl rfl rfl (by rw [state]; exact ⟨rfl, rfl⟩) rfl rfl fun _ isOpen => isOpen
  | stop | forceRotate =>
      cases step
      exact .quiet ⟨rfl, rfl, rfl, rfl, rfl⟩ rfl rfl (fun _ isOpen => isOpen) id
  | spill n =>
      cases step
      exact .quiet ⟨rfl, rfl, rfl, rfl, rfl⟩ rfl (s.journals.fwritten_spill n)
        (fun _ isOpen => (s.journals.isOpen_spill n).trans isOpen) id
  | produce item =>
      refine effect_of_producer step fun ring move => ?_
      obtain ⟨-, rfl⟩ := Memory.System.of_step_produce move
      exact ⟨rfl, rfl⟩
  | tryProduce item =>
      refine effect_of_producer step fun ring move => ?_
      obtain ⟨-, rfl⟩ := Memory.System.of_step_tryProduce move
      exact ⟨rfl, rfl⟩
  | producer =>
      exact effect_of_producer step fun ring move => Memory.System.stepProducer_frame move
  | run now opened => exact effect_of_stepRun step

/-- The ring's own invariant survives every step of either thread. -/
theorem ring_inv_of_step {ring ring' : Ring D} (inv : ring.Inv)
    {l : Memory.Label Unit (Tick D)} (step : ring.step l = some ring') : ring'.Inv :=
  Memory.System.keeps_inv (by decide) Memory.System.few_unit inv (Memory.System.allowed_unit l)
    step

/-! ## The book and the counter -/

/-- The ticks that move the book: `event_type` 0. -/
def bookEvents (ticks : List (Tick D)) : List (Tick D) :=
  ticks.filter fun tick => tick.eventType = 0

theorem bookEvents_concat (ticks : List (Tick D)) (tick : Tick D) :
    bookEvents (ticks ++ [tick]) =
      if tick.eventType = 0 then bookEvents ticks ++ [tick] else bookEvents ticks := by
  by_cases moves : tick.eventType = 0 <;> simp [bookEvents, moves]

variable [Zero D]

structure Inv (s : System D) : Prop where
  ring : s.ring.Inv
  calling : s.pc.isConsuming = false → s.ring.consumer = .idle
  applied : ∃ done, s.ring.returned = done ++ s.pc.toApply ∧ s.book = .ofTicks (bookEvents done)
  counted : ∃ done, s.ring.returned = done ++ s.pc.toCount ∧
    s.ticksWritten = BitVec.ofNat 64 done.length

theorem new_inv (cfg : Config) (data : Fin ringCapacity.size → Tick D) (now : Int) :
    (new cfg data now).Inv where
  ring := Memory.System.new_inv data
  calling := fun _ => rfl
  applied := ⟨[], rfl, rfl⟩
  counted := ⟨[], rfl, rfl⟩

theorem keeps_inv (cfg : Config) : (machine D cfg).Keeps (fun _ _ => True) Inv := by
  intro s l s' inv _ step
  rcases inv.applied with ⟨done, returned, book⟩
  rcases inv.counted with ⟨known, returned', ticksWritten⟩
  cases effect_of_step step with
  | quiet same ring fwritten isOpen calling =>
      refine ⟨ring ▸ inv.ring, fun outside => ring ▸ inv.calling (calling outside),
        ⟨done, ?_, same.book.trans book⟩, ⟨known, ?_, same.ticksWritten.trans ticksWritten⟩⟩
      · rw [ring, same.toApply, returned]
      · rw [ring, same.toCount, returned']
  | ringMove m same move kept journals calling =>
      refine ⟨ring_inv_of_step inv.ring move, fun outside => ?_,
        ⟨done, ?_, same.book.trans book⟩, ⟨known, ?_, same.ticksWritten.trans ticksWritten⟩⟩
      · rcases calling outside with idle | ⟨consumer, before⟩
        · exact idle
        · exact consumer.trans (inv.calling before)
      · rw [kept, same.toApply, returned]
      · rw [kept, same.toCount, returned']
  | consumed loop tick pc move after =>
      have ring := ring_inv_of_step inv.ring move
      subst after
      rw [pc] at returned returned'
      refine ⟨ring, fun _ => rfl, ⟨s.ring.returned, rfl, ?_⟩, ⟨s.ring.returned, rfl, ?_⟩⟩
      · rw [returned]
        exact book.trans (congrArg _ (congrArg _ (List.append_nil done).symm))
      · rw [returned']
        exact ticksWritten.trans (congrArg _ (congrArg _ (List.append_nil known).symm))
  | written loop tick pc after =>
      have idle := inv.calling (by rw [pc]; rfl)
      subst after
      rw [pc] at returned returned'
      exact ⟨inv.ring, fun _ => idle, ⟨done, returned, book⟩, ⟨known, returned', ticksWritten⟩⟩
  | applied loop tick pc after =>
      have idle := inv.calling (by rw [pc]; rfl)
      subst after
      rw [pc] at returned returned'
      refine ⟨inv.ring, fun _ => idle, ⟨done ++ [tick], ?_, ?_⟩, ⟨known, returned', ticksWritten⟩⟩
      · exact returned.trans (List.append_nil _).symm
      · show (if tick.eventType = 0 then s.book.applyTick tick else s.book) = _
        rw [bookEvents_concat, book]
        split
        · exact (OrderBook.ofTicks_concat ..).symm
        · rfl
  | counted loop tick pc after =>
      have idle := inv.calling (by rw [pc]; rfl)
      rcases Pc.nothing_of_isBetween (D := D) loop.isBetween_counted.1 with ⟨-, toApply, toCount⟩
      subst after
      rw [pc] at returned returned'
      refine ⟨inv.ring, fun _ => idle, ⟨done, ?_, book⟩, ⟨known ++ [tick], ?_, ?_⟩⟩
      · exact returned.trans (congrArg _ toApply.symm)
      · refine returned'.trans ?_
        show known ++ [tick] = known ++ [tick] ++ (loop.counted : Pc D).toCount
        rw [toCount, List.append_nil]
      · show s.ticksWritten + 1 = _
        rw [ticksWritten, List.length_append, List.length_singleton, BitVec.ofNat_add]
        rfl

/-! ## The journal while every `fopen` succeeds -/

omit [Zero D] in
structure Journaled (s : System D) : Prop where
  isOpen : s.journals.journalFp.isSome = true
  written : s.ring.returned = s.journals.fwritten ++ s.pc.toWrite

theorem new_journaled (cfg : Config) (data : Fin ringCapacity.size → Tick D) (now : Int) :
    (new cfg data now).Journaled where
  isOpen := rfl
  written := rfl

omit [Zero D] in
theorem keeps_journaled (cfg : Config) :
    (machine D cfg).Keeps (fun _ l => l.opened = true) Journaled := by
  intro s l s' inv opened step
  have written := inv.written
  cases effect_of_step step with
  | quiet same ring fwritten isOpen calling =>
      refine ⟨isOpen opened inv.isOpen, ?_⟩
      rw [ring, fwritten, same.toWrite, written]
  | ringMove m same move kept journals calling =>
      refine ⟨journals ▸ inv.isOpen, ?_⟩
      rw [kept, journals, same.toWrite, written]
  | consumed loop tick pc move after =>
      subst after
      rw [pc] at written
      refine ⟨inv.isOpen, ?_⟩
      exact congrArg (· ++ [tick]) (written.trans (List.append_nil _))
  | written loop tick pc after =>
      subst after
      rw [pc] at written
      refine ⟨(s.journals.isOpen_fwrite tick).trans inv.isOpen, ?_⟩
      show s.ring.returned = (s.journals.fwrite tick).fwritten ++ []
      rw [Journals.fwritten_fwrite inv.isOpen, List.append_nil]
      exact written
  | applied loop tick pc after =>
      subst after
      rw [pc] at written
      exact ⟨inv.isOpen, written⟩
  | counted loop tick pc after =>
      subst after
      rw [pc] at written
      refine ⟨inv.isOpen, written.trans ?_⟩
      exact congrArg _ (Pc.nothing_of_isBetween loop.isBetween_counted.1).1.symm

end System

end Tickscope.Tickerplant
