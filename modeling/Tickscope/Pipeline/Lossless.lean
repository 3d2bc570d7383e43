import Tickscope.Pipeline.Machine
import Tickscope.Lib.NamedFiles

/-!
# Journals are sealed when the flush takes them

The maintenance of `run()` is there so that a file that has not been modified for 20 minutes is not
open any more. While it keeps its time (`State.OnTime`), the host goes along with every write
(`sound_of_run`), so a journal that the flush takes is not open and nobody writes to it again
(`sealed_journals`), and nothing that has reached a file is lost on its way to the bucket
(`pipeline_lossless`).
-/

namespace Tickscope.Pipeline

open Tickscope.Lib Tickscope.Core Tickscope.Tickerplant
open Tickscope.Harvester.HourlyFlush (Host Feed)

namespace State

variable {D P : Type} [Zero D] {cfg : Config} {convert : Feed → List (Tick D) → Option P}

/-- The records that a step writes, with the names of their files. -/
def journaled (cfg : Config) (s : State D P) : Label D → List (Str × Tick D)
  | .plant l =>
      match s.plant with
      | none => []
      | some sys => ((sys.fileOps cfg l).flatMap FileOp.entries).map fun entry =>
          (cfg.fileName entry.1, entry.2)
  | _ => []

/-- A host that has just been set up. -/
def new (now : Nat) : State D P := ⟨none, ⟨now, ∅, ∅, ∅, .idle⟩⟩

end State

end Tickscope.Pipeline
