import Tickscope.Tickerplant.Ticks

/-!
# What reaches the files

The journal's buffer stands between `run()` and the files. `System.fileOps` lists the appends and the
opened files of one step, in order, and `moves_of_step` says what the step does to the journal at the
same time. Without a forced rotation the journal is replaced only where `run()` looks at the clock.
-/

namespace Tickscope.Tickerplant

open Tickscope.Lib Tickscope.Core Tickscope.Rdb

variable {D : Type}

/-- A `write` of some records, or an `fopen(path, "ab")` that succeeds. -/
inductive FileOp (D : Type) where
  | append (path : Str) (ticks : List (Tick D))
  | create (path : Str)

/-- The records of an operation, with the file that they go to. -/
def FileOp.entries : FileOp D → List (Str × Tick D)
  | .append path ticks => ticks.map fun tick => (path, tick)
  | .create _ => []

namespace Journals

/-- The C library writes the first `n` records of the buffer, if there are any. -/
def spillOps (js : Journals D) (n : Nat) : List (FileOp D) :=
  match js.journalFp with
  | none => []
  | some journal =>
      if (journal.buffered.take n).isEmpty then []
      else [.append journal.path (journal.buffered.take n)]

/-- What `fflush` writes. -/
def flushOps (js : Journals D) : List (FileOp D) :=
  match js.journalFp with
  | none => []
  | some journal => js.spillOps journal.buffered.length

def openOps (path : Str) (opened : Bool) : List (FileOp D) := if opened then [.create path] else []

end Journals

namespace System

/-- What a step does to the files. -/
def fileOps (cfg : Config) (s : System D) : Label D → List (FileOp D)
  | .spill n => s.journals.spillOps n
  | .run now opened =>
      match s.pc with
      | .forceRotate =>
          s.journals.flushOps ++ Journals.openOps
            (cfg.makeJournalPath ((s.journals.currentSlot + 1) * cfg.rotationIntervalMinutes * 60))
            opened
      | .clock =>
          if now = s.lastMaintenance then []
          else if 0 < cfg.rotationIntervalMinutes ∧ cfg.timeSlot now ≠ s.journals.currentSlot then
            s.journals.flushOps ++ Journals.openOps (cfg.makeJournalPath now) opened
          else s.journals.flushOps
      | .finalFlush => s.journals.flushOps
      | _ => []
  | _ => []

/-- Everything a step can do to the journal and to the files. -/
inductive Moves (cfg : Config) (s s' : System D) (l : Label D) : Prop where
  | same (journals : s'.journals = s.journals) (ops : s.fileOps cfg l = [])
  | spill (n : Nat) (pc : s'.pc = s.pc) (journals : s'.journals = s.journals.spill n)
      (ops : s.fileOps cfg l = s.journals.spillOps n)
  | write (loop : Loop) (tick : Tick D) (pc : s.pc = .write loop tick)
      (journals : s'.journals = s.journals.fwrite tick) (ops : s.fileOps cfg l = [])
  | flush (pc : s.pc = .clock ∨ s.pc = .finalFlush) (journals : s'.journals = s.journals.fflush)
      (ops : s.fileOps cfg l = s.journals.flushOps)
  | rotate (now : Int) (opened : Bool) (label : l = .run now opened) (pc : s.pc = .clock)
      (journals : s'.journals = s.journals.fflush.rotate cfg now opened)
      (ops : s.fileOps cfg l =
        s.journals.flushOps ++ Journals.openOps (cfg.makeJournalPath now) opened)
  | forced (opened : Bool) (pc : s.pc = .forceRotate)
      (journals : s'.journals = s.journals.rotateForced cfg opened)
      (ops : s.fileOps cfg l = s.journals.flushOps ++ Journals.openOps
        (cfg.makeJournalPath ((s.journals.currentSlot + 1) * cfg.rotationIntervalMinutes * 60))
        opened)

/-- **What a step does to the journal.** -/
theorem moves_of_step {cfg : Config} {s s' : System D} {l : Label D}
    (step : s.step cfg l = some s') : Moves cfg s s' l := by
  cases l with
  | start =>
      simp only [System.step] at step
      split at step <;> cases step
      exact .same rfl rfl
  | stop | forceRotate =>
      cases step
      exact .same rfl rfl
  | spill n =>
      cases step
      exact .spill n rfl rfl rfl
  | produce item | tryProduce item | producer =>
      obtain ⟨ring, -, rfl⟩ := of_ringStep step
      exact .same rfl rfl
  | run now opened =>
      simp only [System.step, stepRun] at step
      cases state : s.pc with
      | created | exited =>
          rw [state] at step
          cases step
      | consume loop =>
          rw [state] at step
          obtain ⟨ring, -, rfl⟩ := of_ringStep step
          exact .same rfl (by rw [fileOps, state])
      | consuming loop =>
          rw [state] at step
          dsimp only at step
          split at step
          all_goals
            obtain ⟨ring, -, rfl⟩ := of_ringStep step
            exact .same rfl (by rw [fileOps, state])
      | forceRotate =>
          rw [state] at step
          cases step
          exact .forced opened state rfl (by rw [fileOps, state])
      | write loop tick =>
          rw [state] at step
          cases step
          exact .write loop tick state rfl (by rw [fileOps, state])
      | clock =>
          rw [state] at step
          dsimp only at step
          split at step <;> rename_i again <;> cases step
          · exact .same rfl (by rw [fileOps, state]; exact if_pos again)
          · by_cases due : 0 < cfg.rotationIntervalMinutes ∧
                cfg.timeSlot now ≠ s.journals.currentSlot
            · refine .rotate now opened rfl state (if_pos due) ?_
              rw [fileOps, state]
              dsimp only
              rw [if_neg again, if_pos due]
            · refine .flush (.inl state) (if_neg due) ?_
              rw [fileOps, state]
              dsimp only
              rw [if_neg again, if_neg due]
      | finalFlush =>
          rw [state] at step
          cases step
          exact .flush (.inr state) rfl (by rw [fileOps, state])
      | _ =>
          rw [state] at step
          cases step
          exact .same rfl (by rw [fileOps, state])

end System

/-- `run()` is about to rotate because it has been asked to. -/
def Pc.isForcing : Pc D → Bool
  | .clearForce => true
  | .forceRotate => true
  | _ => false

namespace System

/-! ## Without forced rotations -/

/-- No rotation has been asked for. -/
def Unforced (s : System D) : Prop := s.forceRotate = false ∧ s.pc.isForcing = false

theorem keeps_unforced (cfg : Config) :
    (machine D cfg).Keeps (fun _ l => l ≠ .forceRotate) Unforced := by
  intro s l s' unforced allowed step
  obtain ⟨off, calm⟩ := unforced
  have ring {m : Memory.Label Unit (Tick D)} {pc : Pc D} (step : s.ringStep m pc = some s')
      (next : pc.isForcing = false) : Unforced s' := by
    obtain ⟨ring, -, rfl⟩ := of_ringStep step
    exact ⟨off, next⟩
  simp only [machine] at step
  cases l with
  | forceRotate => exact (allowed rfl).elim
  | start =>
      simp only [System.step] at step
      split at step <;> cases step
      exact ⟨off, rfl⟩
  | stop | spill n =>
      cases step
      exact ⟨off, calm⟩
  | produce item | tryProduce item | producer => exact ring step calm
  | run now opened =>
      simp only [System.step, stepRun] at step
      cases state : s.pc with
      | created | exited =>
          rw [state] at step
          cases step
      | clearForce | forceRotate =>
          rw [state] at calm
          cases calm
      | checkForce =>
          rw [state] at step
          cases step
          exact ⟨off, by rw [off]; rfl⟩
      | checkRunning =>
          rw [state] at step
          cases step
          exact ⟨off, by cases running : s.running <;> rfl⟩
      | consume loop =>
          rw [state] at step
          exact ring step rfl
      | consuming loop =>
          rw [state] at step
          dsimp only at step
          split at step
          · rename_i out done
            exact ring step (by cases out <;> cases loop <;> rfl)
          · exact ring step rfl
      | count loop tick =>
          rw [state] at step
          cases step
          exact ⟨off, by cases loop <;> rfl⟩
      | maintain =>
          rw [state] at step
          cases step
          exact ⟨off, by dsimp only; split <;> rfl⟩
      | clock =>
          rw [state] at step
          dsimp only at step
          split at step <;> cases step <;> exact ⟨off, rfl⟩
      | _ =>
          rw [state] at step
          cases step
          exact ⟨off, rfl⟩

end System

end Tickscope.Tickerplant
