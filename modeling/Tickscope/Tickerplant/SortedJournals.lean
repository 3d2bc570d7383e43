import Tickscope.Lib.NamedFiles
import Tickscope.Tickerplant.EndToEnd
import Tickscope.Tickerplant.FileOps
import Tickscope.Tickerplant.JournalNames

/-!
# Journals in the order of their names

`hourly_flush.sh` and the scripts behind it go through the journals in the order of their names,
"oldest first". While the clock does not step back and no rotation is forced, a rotation only opens
a later name (`Filed`), so the files hold the ticks in the order of acceptance, also those of a
tickerplant that was restarted and went on with the file of its window.
-/

namespace Tickscope.Tickerplant

open Tickscope.Lib Tickscope.Core Tickscope.Rdb

variable {D : Type}

/-! ## The files of an earlier process -/

namespace Journals

/-- What the files held before a process is `old`. -/
def onto (old : List (Str × Tick D)) (js : Journals D) : Journals D :=
  { js with disk := old ++ js.disk }

variable (old : List (Str × Tick D)) (js : Journals D)

theorem spill_onto (n : Nat) : (js.onto old).spill n = (js.spill n).onto old := by
  rcases js with ⟨fp, slot, disk⟩
  cases fp with
  | none => rfl
  | some journal => simp only [spill, onto, List.append_assoc]

theorem fflush_onto : (js.onto old).fflush = js.fflush.onto old := by
  rcases js with ⟨fp, slot, disk⟩
  cases fp with
  | none => rfl
  | some journal => simp only [fflush, onto, List.append_assoc]

theorem fwrite_onto (tick : Tick D) : (js.onto old).fwrite tick = (js.fwrite tick).onto old := by
  rcases js with ⟨fp, slot, disk⟩
  cases fp <;> rfl

theorem rotate_onto (cfg : Config) (now : Int) (opened : Bool) :
    (js.onto old).rotate cfg now opened = (js.rotate cfg now opened).onto old := by
  rw [rotate, fclose, fflush_onto]
  rfl

theorem rotateForced_onto (cfg : Config) (opened : Bool) :
    (js.onto old).rotateForced cfg opened = (js.rotateForced cfg opened).onto old := by
  rcases js with ⟨fp, slot, disk⟩
  have flushed := fflush_onto old ⟨fp, slot + 1, disk⟩
  dsimp only [onto] at flushed
  simp only [rotateForced, fclose, onto, flushed]
  rfl

theorem maintain_onto (cfg : Config) (now : Int) (opened : Bool) :
    (js.onto old).maintain cfg now opened = (js.maintain cfg now opened).onto old := by
  unfold maintain
  rw [fflush_onto]
  have slot : (js.onto old).currentSlot = js.currentSlot := rfl
  rw [slot]
  split
  · exact rotate_onto old js.fflush cfg now opened
  · rfl

end Journals

namespace System

/-- The same tickerplant over files that held `old` before it. -/
def onto (old : List (Str × Tick D)) (s : System D) : System D :=
  { s with journals := s.journals.onto old }

/-- No step looks at what the files held before. -/
theorem step_onto (cfg : Config) (old : List (Str × Tick D)) (s : System D) (l : Label D) :
    (s.onto old).step cfg l = (s.step cfg l).map (·.onto old) := by
  have ring (m : Memory.Label Unit (Tick D)) (pc : Pc D) :
      (s.onto old).ringStep m pc = (s.ringStep m pc).map (·.onto old) := by
    unfold ringStep
    rw [Option.map_map]
    rfl
  cases l with
  | start =>
      simp only [System.step, onto]
      cases s.pc <;> rfl
  | stop | forceRotate => rfl
  | spill n =>
      simp only [System.step, onto, Journals.spill_onto]
      rfl
  | produce item | tryProduce item | producer => exact ring _ s.pc
  | run now opened =>
      have same : (s.onto old).pc = s.pc ∧ (s.onto old).ring = s.ring ∧
        (s.onto old).journals = s.journals.onto old := ⟨rfl, rfl, rfl⟩
      simp only [System.step, stepRun]
      rw [same.1, same.2.1, same.2.2]
      cases s.pc with
      | consume loop => exact ring .consume _
      | consuming loop =>
          dsimp only
          split <;> exact ring .consumer _
      | forceRotate =>
          dsimp only
          rw [Journals.rotateForced_onto]
          rfl
      | write loop tick =>
          dsimp only
          rw [Journals.fwrite_onto]
          rfl
      | clock =>
          dsimp only
          rw [Journals.maintain_onto, apply_ite (Option.map _)]
          rfl
      | finalFlush =>
          dsimp only
          rw [Journals.fflush_onto]
          rfl
      | _ => rfl

theorem run_onto (cfg : Config) (old : List (Str × Tick D)) (s : System D) (ls : List (Label D)) :
    (machine D cfg).run (s.onto old) ls = ((machine D cfg).run s ls).map (·.onto old) := by
  induction ls generalizing s with
  | nil => rfl
  | cons l ls ih =>
      rw [Machine.run_cons, Machine.run_cons]
      show ((s.onto old).step cfg l).bind _ = ((s.step cfg l).bind _).map _
      rw [step_onto]
      cases s.step cfg l with
      | none => rfl
      | some s' => exact ih s'

end System

/-! ## The order of the names -/

namespace Config

variable {cfg : Config}

theorem timeSlot_mono (rotates : 0 < cfg.rotationIntervalMinutes) {t₁ t₂ : Int} (nonneg : 0 ≤ t₁)
    (le : t₁ ≤ t₂) : cfg.timeSlot t₁ ≤ cfg.timeSlot t₂ := by
  rw [timeSlot, timeSlot, if_neg rotates.not_ge, if_neg rotates.not_ge,
    Int.tdiv_eq_ediv_of_nonneg nonneg, Int.tdiv_eq_ediv_of_nonneg (nonneg.trans le),
    Int.tdiv_eq_ediv_of_nonneg (by omega), Int.tdiv_eq_ediv_of_nonneg (by omega)]
  exact Int.ediv_le_ediv rotates (Int.ediv_le_ediv (by decide) le)

theorem makeJournalPath_mono (rotates : 0 < cfg.rotationIntervalMinutes) {t₁ t₂ : Int}
    (h₁ : Dated t₁) (h₂ : Dated t₂) (le : t₁ ≤ t₂) :
    cfg.makeJournalPath t₁ ≤ cfg.makeJournalPath t₂ := by
  intro lt
  exact (timeSlot_mono rotates h₁.1 le).not_gt ((makeJournalPath_lt_iff rotates h₂ h₁).mp lt)

end Config

theorem Dated.between {start t time : Int} (first : Dated start) (last : Dated time)
    (le : start ≤ t) (le' : t ≤ time) : Dated t :=
  ⟨first.1.trans le, le'.trans_lt last.2⟩

/-! ## Where the records go -/

/-- The journal is that of the window of `time`, and since `start` the files have been written in the
order of their names. -/
structure Journals.Filed (cfg : Config) (start time : Int) (js : Journals D) : Prop where
  since : start ≤ time
  first : Dated start
  last : Dated time
  slot : js.currentSlot = cfg.timeSlot time
  path : ∀ journal, js.journalFp = some journal → journal.path = cfg.makeJournalPath time
  named : ∀ entry ∈ js.disk, ∃ t, start ≤ t ∧ t ≤ time ∧ entry.1 = cfg.makeJournalPath t
  sorted : (js.disk.map Prod.fst).Pairwise (· ≤ ·)

namespace Journals

variable {cfg : Config} {start time : Int} {js : Journals D}

/-- What reaches the file of the current window comes last. -/
theorem Filed.append (filed : js.Filed cfg start time) (rotates : 0 < cfg.rotationIntervalMinutes)
    {journal : Journal D} (fp : js.journalFp = some journal) (ticks : List (Tick D))
    (buffered : List (Tick D)) :
    Filed cfg start time { js with
      journalFp := some { journal with buffered := buffered }
      disk := js.disk ++ ticks.map fun tick => (journal.path, tick) } := by
  have path := filed.path journal fp
  refine ⟨filed.since, filed.first, filed.last, filed.slot, ?_, ?_, ?_⟩
  · intro journal' fp'
    cases fp'
    exact path
  · intro entry mem
    rcases List.mem_append.mp mem with before | here
    · exact filed.named entry before
    · obtain ⟨tick, -, rfl⟩ := List.mem_map.mp here
      exact ⟨time, filed.since, le_rfl, path⟩
  · dsimp only
    rw [List.map_append, List.pairwise_append]
    refine ⟨filed.sorted, ?_, ?_⟩
    · rw [List.map_map, List.pairwise_map]
      exact List.pairwise_of_forall fun _ _ => List.le_refl journal.path
    · intro name before name' here
      obtain ⟨entry, mem, rfl⟩ := List.mem_map.mp before
      obtain ⟨t, le, le', named⟩ := filed.named entry mem
      obtain ⟨entry', mem', rfl⟩ := List.mem_map.mp here
      obtain ⟨tick, -, rfl⟩ := List.mem_map.mp mem'
      rw [named, path]
      exact Config.makeJournalPath_mono rotates (filed.first.between filed.last le le') filed.last le'

theorem Filed.spill (filed : js.Filed cfg start time) (rotates : 0 < cfg.rotationIntervalMinutes)
    (n : Nat) : (js.spill n).Filed cfg start time := by
  unfold Journals.spill
  split
  · exact filed
  · rename_i journal fp
    exact filed.append rotates fp _ _

theorem Filed.fflush (filed : js.Filed cfg start time)
    (rotates : 0 < cfg.rotationIntervalMinutes) : js.fflush.Filed cfg start time := by
  unfold Journals.fflush
  split
  · exact filed
  · rename_i journal fp
    exact filed.append rotates fp _ _

theorem Filed.fwrite (filed : js.Filed cfg start time)
    (rotates : 0 < cfg.rotationIntervalMinutes) (tick : Tick D) :
    (js.fwrite tick).Filed cfg start time := by
  unfold Journals.fwrite
  split
  · exact filed
  · rename_i journal fp
    have kept := filed.append rotates fp [] (journal.buffered ++ [tick])
    rw [List.map_nil, List.append_nil] at kept
    exact kept

/-- A rotation goes on to the window of a later time. -/
theorem Filed.rotate (filed : js.Filed cfg start time)
    (rotates : 0 < cfg.rotationIntervalMinutes) {now : Int} (later : time ≤ now)
    (dated : Dated now) (opened : Bool) :
    (js.fflush.rotate cfg now opened).Filed cfg start now := by
  have flushed := (filed.fflush rotates).fflush rotates
  refine ⟨filed.since.trans later, filed.first, dated, rfl, ?_, ?_, flushed.sorted⟩
  · intro journal fp
    cases opened with
    | false => cases fp
    | true =>
        cases fp
        rfl
  · intro entry mem
    obtain ⟨t, le, le', named⟩ := flushed.named entry mem
    exact ⟨t, le, le'.trans later, named⟩

end Journals

/-- The time that `run()` would read at the step. -/
def Label.clock : Label D → Option Int
  | .run clock _ => some clock
  | _ => none

namespace System

theorem filed_of_step {cfg : Config} (rotates : 0 < cfg.rotationIntervalMinutes)
    {start time : Int} {s s' : System D} {l : Label D} (filed : s.journals.Filed cfg start time)
    (unforced : s.Unforced) (later : ∀ now, l.clock = some now → time ≤ now ∧ Dated now)
    (step : s.step cfg l = some s') :
    s'.journals.Filed cfg start time ∨
      ∃ now, l.clock = some now ∧ s'.journals.Filed cfg start now := by
  cases moves_of_step step with
  | same journals ops => exact .inl (journals ▸ filed)
  | spill n pc journals ops => exact .inl (journals ▸ filed.spill rotates n)
  | write loop tick pc journals ops => exact .inl (journals ▸ filed.fwrite rotates tick)
  | flush pc journals ops => exact .inl (journals ▸ filed.fflush rotates)
  | rotate now opened label pc journals ops =>
      have clock : l.clock = some now := by rw [label]; rfl
      obtain ⟨le, dated⟩ := later now clock
      exact .inr ⟨now, clock, journals ▸ filed.rotate rotates le dated opened⟩
  | forced opened pc journals ops =>
      have calm := unforced.2
      rw [pc] at calm
      cases calm

theorem filed_of_run {cfg : Config} (rotates : 0 < cfg.rotationIntervalMinutes)
    {start time : Int} {s t : System D} {ls : List (Label D)}
    (filed : s.journals.Filed cfg start time) (unforced : s.Unforced)
    (never : Label.forceRotate ∉ ls) (forward : (ls.filterMap Label.clock).Pairwise (· ≤ ·))
    (later : ∀ now ∈ ls.filterMap Label.clock, time ≤ now ∧ Dated now)
    (reached : (machine D cfg).run s ls = some t) :
    ∃ last, (last = time ∨ last ∈ ls.filterMap Label.clock) ∧
      t.journals.Filed cfg start last := by
  induction ls generalizing s time with
  | nil =>
      cases reached
      exact ⟨time, .inl rfl, filed⟩
  | cons l ls ih =>
      obtain ⟨s', step, rest⟩ := Machine.run_cons_eq_some.mp reached
      obtain ⟨other, never⟩ := not_or.mp (mt List.mem_cons.mpr never)
      have unforced' := keeps_unforced cfg unforced (Ne.symm other) step
      have tail : ∀ now ∈ ls.filterMap Label.clock, now ∈ (l :: ls).filterMap Label.clock := by
        intro now mem
        obtain ⟨k, mem, clock⟩ := List.mem_filterMap.mp mem
        exact List.mem_filterMap.mpr ⟨k, List.mem_cons_of_mem l mem, clock⟩
      have head : ∀ now, l.clock = some now → now ∈ (l :: ls).filterMap Label.clock :=
        fun now clock => List.mem_filterMap.mpr ⟨l, List.mem_cons_self, clock⟩
      have forward' : (ls.filterMap Label.clock).Pairwise (· ≤ ·) :=
        forward.sublist ((List.sublist_cons_self l ls).filterMap _)
      rcases filed_of_step rotates filed unforced (fun now clock => later now (head now clock))
        step with kept | ⟨now, clock, rotated⟩
      · obtain ⟨last, seen, filed'⟩ := ih kept unforced' never forward'
          (fun now mem => later now (tail now mem)) rest
        exact ⟨last, seen.imp_right (tail last), filed'⟩
      · have after : ∀ t ∈ ls.filterMap Label.clock, now ≤ t := by
          rw [List.filterMap_cons_some clock] at forward
          exact (List.pairwise_cons.mp forward).1
        obtain ⟨last, seen, filed'⟩ := ih rotated unforced' never forward'
          (fun t mem => ⟨after t mem, (later t (tail t mem)).2⟩) rest
        rcases seen with rfl | seen
        · exact ⟨last, .inr (head last clock), filed'⟩
        · exact ⟨last, .inr (tail last seen), filed'⟩

end System

end Tickscope.Tickerplant
