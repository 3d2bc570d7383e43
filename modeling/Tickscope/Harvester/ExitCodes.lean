import Tickscope.Harvester.HourlyFlush

/-!
# What the exit code says

The codes of `hourly_flush.sh`, read off what its commands have returned (`codeOf`). The script stops
before it removes anything, and before it looks at the Coinbase journals, unless a Polymarket journal
has been converted and every Polymarket copy has been confirmed. A Coinbase copy that fails is only
reported: the code does not show it.
-/

namespace Tickscope.Harvester.HourlyFlush

open Tickscope.Lib

/-- A command has returned. -/
inductive Event where
  | convert (feed : Feed) (bin : Str) (ok : Bool)
  | copy (feed : Feed) (bin : Str) (ok : Bool)
  | remove (feed : Feed) (bin : Str) (ok : Bool)
deriving DecidableEq

namespace Event

def isConversion : Event → Bool
  | .convert .polymarket _ _ => true
  | _ => false

/-- A Polymarket journal has been converted. -/
def isParquet : Event → Bool
  | .convert .polymarket _ true => true
  | _ => false

/-- A journal has not been converted. -/
def isFailure : Event → Bool
  | .convert _ _ false => true
  | _ => false

/-- A Polymarket copy has failed. -/
def isRefusal : Event → Bool
  | .copy .polymarket _ false => true
  | _ => false

/-- An `rm` has failed. -/
def isStuck : Event → Bool
  | .remove _ _ false => true
  | _ => false

/-- Something is removed, or the Coinbase journals have their turn. -/
def isLate : Event → Bool
  | .remove _ _ _ => true
  | .convert .coinbase _ _ => true
  | .copy .coinbase _ _ => true
  | _ => false

end Event

/-- The exit code, by what the commands have returned. -/
def codeOf (events : List Event) : Nat :=
  if !events.any Event.isConversion then 0
  else if !events.any Event.isParquet then 1
  else if events.any Event.isRefusal then 2
  else if events.any Event.isStuck || events.any Event.isFailure then 1
  else 0

namespace Host

variable {α P : Type} (convert : Feed → List α → Option P)

/-- The command that returns in this step. -/
def events (h : Host α P) : Label α → List Event
  | .script ok _ =>
      match h.pc with
      | .convert (bin :: _) _ _ =>
          [.convert .polymarket bin (h.converted convert .polymarket bin ok).isSome]
      | .upload (bin :: _) _ _ _ => [.copy .polymarket bin (h.copies .polymarket bin ok)]
      | .remove (bin :: _) _ => [.remove .polymarket bin ok]
      | .removeParquet bin _ _ => [.remove .polymarket bin ok]
      | .convertBtc (bin :: _) _ =>
          [.convert .coinbase bin (h.converted convert .coinbase bin ok).isSome]
      | .uploadBtc bin _ _ => [.copy .coinbase bin (h.copies .coinbase bin ok)]
      | .removeBtc bin _ _ => [.remove .coinbase bin ok]
      | .removeBtcParquet bin _ _ => [.remove .coinbase bin ok]
      | _ => []
  | _ => []

/-- The step neither starts the script nor kills it. -/
def Undisturbed : Label α → Bool
  | .start => false
  | .kill => false
  | _ => true

end Host

/-! ## What the variables of the script remember -/

/-- A Polymarket journal has been converted, and no Polymarket copy has failed. -/
def Confirmed (seen : List Event) : Prop :=
  seen.any Event.isParquet = true ∧ seen.any Event.isRefusal = false

/-- The script has got behind its first loop: `failed` counts what has not been converted. -/
structure Past (seen : List Event) (failed : Nat) : Prop where
  conversion : seen.any Event.isConversion = true
  parquet : seen.any Event.isParquet = true
  unstuck : seen.any Event.isStuck = false
  failed : seen.any Event.isFailure = decide (failed ≠ 0)

/-- What the script remembers of the commands that have returned. -/
def Remembers (seen : List Event) : Pc → Prop
  | .idle => False
  | .find => seen = []
  | .convert closedBins convertedBins failed =>
      (closedBins ≠ [] ∨ seen.any Event.isConversion = true) ∧
        seen.any Event.isParquet = !convertedBins.isEmpty ∧ seen.any Event.isStuck = false ∧
        seen.any Event.isFailure = decide (failed ≠ 0) ∧ seen.any Event.isRefusal = false ∧
        seen.any Event.isLate = false
  | .upload _ _ failed uploadOk =>
      Past seen failed ∧ seen.any Event.isRefusal = !uploadOk ∧ seen.any Event.isLate = false
  | .remove _ failed => Past seen failed ∧ seen.any Event.isRefusal = false
  | .removeParquet _ _ failed => Past seen failed ∧ seen.any Event.isRefusal = false
  | .findBtc failed => Past seen failed ∧ seen.any Event.isRefusal = false
  | .convertBtc _ failed => Past seen failed ∧ seen.any Event.isRefusal = false
  | .uploadBtc _ _ failed => Past seen failed ∧ seen.any Event.isRefusal = false
  | .removeBtc _ _ failed => Past seen failed ∧ seen.any Event.isRefusal = false
  | .removeBtcParquet _ _ failed => Past seen failed ∧ seen.any Event.isRefusal = false
  | .exited code => code = codeOf seen ∧ (seen.any Event.isLate = true → Confirmed seen)

theorem Past.exit_of_stuck {seen : List Event} {failed : Nat} (past : Past seen failed)
    (confirmed : seen.any Event.isRefusal = false) (feed : Feed) (bin : Str) :
    Remembers (seen ++ [.remove feed bin false]) (.exited 1) := by
  obtain ⟨conversion, parquet, unstuck, failed⟩ := past
  simp [Remembers, codeOf, Confirmed, conversion, parquet, confirmed, Event.isStuck,
    Event.isRefusal]

/-- A command that succeeds, or a copy. -/
theorem Past.append {seen : List Event} {failed : Nat} (past : Past seen failed) {event : Event}
    (unstuck : event.isStuck = false) (converted : event.isFailure = false) :
    Past (seen ++ [event]) failed := by
  obtain ⟨conversion, parquet, free, count⟩ := past
  constructor <;> simp_all

theorem Past.append_failure {seen : List Event} {failed : Nat} (past : Past seen failed)
    (feed : Feed) (bin : Str) : Past (seen ++ [.convert feed bin false]) (failed + 1) := by
  obtain ⟨conversion, parquet, free, count⟩ := past
  constructor <;> simp_all [Event.isStuck, Event.isFailure]

theorem any_isRefusal_append {seen : List Event} {event : Event}
    (confirmed : seen.any Event.isRefusal = false) (good : event.isRefusal = false) :
    (seen ++ [event]).any Event.isRefusal = false := by
  simp_all

/-- The last test of the script. -/
theorem Past.exit {seen : List Event} {failed : Nat} (past : Past seen failed)
    (confirmed : seen.any Event.isRefusal = false) :
    Remembers seen (.exited (if failed = 0 then 0 else 1)) := by
  obtain ⟨conversion, parquet, unstuck, count⟩ := past
  refine ⟨?_, fun _ => ⟨parquet, confirmed⟩⟩
  rw [codeOf, conversion, parquet, confirmed, unstuck, count]
  by_cases none : failed = 0 <;> simp [none]

namespace Host

variable {α P : Type} {convert : Feed → List α → Option P} {h h' : Host α P}

/-- One command of the first loop. -/
theorem remembers_convert {seen : List Event} {bin : Str} {bins convertedBins : List Str}
    {failed : Nat} (remembers : Remembers seen (.convert (bin :: bins) convertedBins failed)) :
    Remembers (seen ++ [.convert .polymarket bin true])
        (.convert bins (convertedBins ++ [bin]) failed) ∧
      Remembers (seen ++ [.convert .polymarket bin false])
        (.convert bins convertedBins (failed + 1)) := by
  obtain ⟨-, parquet, unstuck, count, confirmed, early⟩ := remembers
  constructor
  · simp_all [Remembers, Event.isConversion, Event.isParquet, Event.isStuck, Event.isFailure,
      Event.isRefusal, Event.isLate]
  · simp_all [Remembers, Event.isConversion, Event.isParquet, Event.isStuck, Event.isFailure,
      Event.isRefusal, Event.isLate]

/-- One command of the loop over the copies. -/
theorem remembers_upload {seen : List Event} {bin : Str} {bins convertedBins : List Str}
    {failed : Nat} {uploadOk : Bool}
    (remembers : Remembers seen (.upload (bin :: bins) convertedBins failed uploadOk)) (ok : Bool) :
    Remembers (seen ++ [.copy .polymarket bin ok])
      (.upload bins convertedBins failed (uploadOk && ok)) := by
  obtain ⟨past, refused, early⟩ := remembers
  refine ⟨past.append rfl rfl, ?_, ?_⟩
  · cases uploadOk <;> cases ok <;> simp_all [Event.isRefusal]
  · simp_all [Event.isLate]

/-- The first loop has come to its end. -/
theorem remembers_allConverted {seen : List Event} {convertedBins : List Str} {failed : Nat}
    (remembers : Remembers seen (.convert [] convertedBins failed)) :
    Remembers seen (if convertedBins.isEmpty then .exited 1
      else .upload convertedBins convertedBins failed true) := by
  obtain ⟨conversion, parquet, unstuck, count, confirmed, early⟩ := remembers
  have conversion := conversion.resolve_left (· rfl)
  cases none : convertedBins.isEmpty with
  | true =>
      rw [none] at parquet
      refine ⟨?_, fun late => ?_⟩
      · rw [codeOf, conversion, parquet]
        rfl
      · rw [early] at late
        cases late
  | false =>
      rw [none] at parquet
      exact ⟨⟨conversion, parquet, unstuck, count⟩, confirmed, early⟩

/-- The loop over the copies has come to its end, and one has failed. -/
theorem remembers_notCopied {seen : List Event} {convertedBins : List Str} {failed : Nat}
    (remembers : Remembers seen (.upload [] convertedBins failed false)) :
    Remembers seen (.exited 2) := by
  obtain ⟨past, refused, early⟩ := remembers
  refine ⟨?_, fun late => ?_⟩
  · rw [codeOf, past.conversion, past.parquet, refused]
    rfl
  · rw [early] at late
    cases late

theorem remembers_of_stepScript {seen : List Event} (remembers : Remembers seen h.pc)
    {ok wrote : Bool} (step : h.stepScript convert ok wrote = some h') :
    Remembers (seen ++ h.events convert (.script ok wrote)) h'.pc := by
  have goes := goes_of_stepScript convert step
  unfold events
  generalize h.pc = at_ at goes remembers
  cases goes with
  | nothingClosed =>
      obtain rfl : seen = [] := remembers
      exact ⟨rfl, nofun⟩
  | find found =>
      obtain rfl : seen = [] := remembers
      refine ⟨.inl ?_, rfl, rfl, rfl, rfl, rfl⟩
      rintro none
      rw [none] at found
      cases found
  | nothingConverted none | allConverted none =>
      have goes := remembers_allConverted remembers
      rw [none] at goes
      rw [List.append_nil]
      exact goes
  | convert converted =>
      simp only [converted]
      exact (remembers_convert remembers).1
  | spoil converted =>
      simp only [converted]
      exact (remembers_convert remembers).2
  | allCopied =>
      obtain ⟨past, refused, -⟩ := remembers
      rw [List.append_nil]
      exact ⟨past, refused⟩
  | notCopied =>
      rw [List.append_nil]
      exact remembers_notCopied remembers
  | upload => exact remembers_upload remembers _
  | allRemoved | findBtc =>
      rw [List.append_nil]
      exact remembers
  | ends =>
      rw [List.append_nil]
      exact remembers.1.exit remembers.2
  | remove good | removeParquet good | removeBtc good | removeBtcParquet good =>
      subst good
      exact ⟨remembers.1.append rfl rfl, any_isRefusal_append remembers.2 rfl⟩
  | stuck bad | stuckParquet bad | stuckBtc bad | stuckBtcParquet bad =>
      subst bad
      exact remembers.1.exit_of_stuck remembers.2 _ _
  | convertBtc converted =>
      simp only [converted]
      exact ⟨remembers.1.append rfl rfl, any_isRefusal_append remembers.2 rfl⟩
  | spoilBtc converted =>
      simp only [converted]
      exact ⟨remembers.1.append_failure _ _, any_isRefusal_append remembers.2 rfl⟩
  | uploadBtc | notCopiedBtc =>
      exact ⟨remembers.1.append rfl rfl, any_isRefusal_append remembers.2 rfl⟩

/-! ## A run of the script -/

theorem remembers_of_run {seen : List Event} {labels : List (Label α)}
    (remembers : Remembers seen h.pc) (undisturbed : ∀ l ∈ labels, Undisturbed l = true)
    (reached : (machine convert).run h labels = some h') :
    Remembers (seen ++ (machine convert).trace (events convert) h labels) h'.pc := by
  induction labels generalizing h seen with
  | nil =>
      cases reached
      rw [Machine.trace_nil, List.append_nil]
      exact remembers
  | cons l labels ih =>
      obtain ⟨m, step, rest⟩ := Machine.run_cons_eq_some.mp reached
      rw [Machine.trace_cons step, ← List.append_assoc]
      refine ih ?_ (fun k mem => undisturbed k (List.mem_cons_of_mem l mem)) rest
      cases l with
      | script ok wrote => exact remembers_of_stepScript remembers step
      | start => cases undisturbed _ List.mem_cons_self
      | kill => cases undisturbed _ List.mem_cons_self
      | wait | create | append =>
          cases step
          have quiet : seen ++ [] = seen := List.append_nil seen
          exact quiet.symm ▸ remembers

/-- **The exit code.** A run of the script that ends by itself ends with the code of what its commands
have returned, whatever is written meanwhile; and it has removed a file or looked at a Coinbase journal
only if a Polymarket journal has been converted and every Polymarket copy has been confirmed. -/
theorem exit_code (convert : Feed → List α → Option P) (h h' : Host α P) (labels : List (Label α))
    (code : Nat) (started : h.pc = .find) (undisturbed : ∀ l ∈ labels, Undisturbed l = true)
    (reached : (machine convert).run h labels = some h') (ended : h'.pc = .exited code) :
    code = codeOf ((machine convert).trace (events convert) h labels) ∧
      (((machine convert).trace (events convert) h labels).any Event.isLate = true →
        Confirmed ((machine convert).trace (events convert) h labels)) := by
  have first : Remembers [] h.pc := by rw [started]; rfl
  have last := remembers_of_run first undisturbed reached
  rw [ended] at last
  exact last

/-- Two closed journals, one of each feed. -/
def twoJournals : Host Nat (List Nat) where
  now := 10 ^ 7
  dataDir := (AList.singleton (ascii "btc_20260307_0930.bin") ⟨0, [9]⟩).insert
    (ascii "polymarket_20260307_0930.bin") ⟨0, [1]⟩
  parquets := ∅
  bucket := ∅
  pc := .find

/-- Everything succeeds but the copy of the Coinbase journal. -/
def refusedBtc : List (Label Nat) :=
  List.replicate 10 (.script true false) ++ [.script false false, .script true false]

/-- The journal is still there, and the code is 0. -/
theorem exit_code_refusedBtc :
    ∃ h' : Host Nat (List Nat), (machine fun _ rows => some rows).run twoJournals refusedBtc = some h' ∧
      (h'.dataDir.lookup (ascii "btc_20260307_0930.bin")).isSome = true ∧
      0 = codeOf ((machine fun _ rows => some rows).trace (events fun _ rows => some rows)
        twoJournals refusedBtc) := by
  have runs : ((machine fun _ rows => some rows).run twoJournals refusedBtc).map
      (fun h => (h.pc, (h.dataDir.lookup (ascii "btc_20260307_0930.bin")).isSome)) =
        some (.exited 0, true) := by
    decide +kernel
  obtain ⟨h', reached, ends⟩ := Option.map_eq_some_iff.mp runs
  obtain ⟨ended, present⟩ := Prod.mk.inj ends
  refine ⟨h', reached, present, ?_⟩
  exact (exit_code (fun _ rows => some rows) twoJournals h' refusedBtc 0 rfl (by decide) reached ended).1

end Host

end Tickscope.Harvester.HourlyFlush
