import Tickscope.Gateway.MarketDiscovery
import Tickscope.Harvester.Retention
import Tickscope.Lib.Machine

/-!
# Boot and re-discovery

The harvester's sessions on one data directory: the boot sequence of `main`, the cycles of
`rediscover_loop`, and what else happens to the files. Fetches are in the labels, the calls of the
file system succeed. Between two steps of a cycle the tickerplant may write ticks; the feed sends
ticks of subscribed tokens only. A file's content is the list of the tokens that its ticks are for.
-/

namespace Tickscope.Harvester

open Tickscope.Gateway Tickscope.Lib

structure Config where
  /-- `POLYMARKET_MARKET_FILTER` -/
  filterStr : Str
  /-- `POLYMARKET_RETENTION_DAYS`, 0 = unlimited -/
  retentionDays : BitVec 32

/-- `std::chrono::hours(1)` in the nanoseconds of the steady clock. -/
def oneHour : Int := 3600 * 10 ^ 9

/-- Where the re-discovery thread is in a cycle, with the fetched rows. -/
inductive Phase where
  /-- before the boot sequence -/
  | down
  | sleeping
  /-- `append_new_metadata_csv` -/
  | append (fresh : List TokenMeta)
  /-- the diff against `known_ids` -/
  | subscribe (fresh : List TokenMeta)
  /-- whether retention is due -/
  | retention (fresh : List TokenMeta)
  /-- `prune_old_data_files` -/
  | pruneFiles (fresh : List TokenMeta)
  /-- `prune_metadata_csv` -/
  | pruneMetadata (fresh : List TokenMeta)
deriving DecidableEq

structure System where
  csv : Option Str
  dataDir : List (DirEntry (List Str))
  knownIds : List Str
  metadataKnown : List Str
  lastRetention : Int
  phase : Phase
  /-- the tokens of the last fetched listing -/
  listing : List Str
  /-- the tokens whose rows this session's retention has dropped -/
  dropped : List Str

inductive Label where
  /-- a session starts; the boot sequence runs -/
  | boot (fresh : List TokenMeta) (steady : Int)
  /-- a cycle starts and fetches -/
  | wake (fresh : List TokenMeta)
  /-- the cycle's next step, with readings of the three clocks -/
  | step (steady time : Int) (now : BitVec 64)
  /-- a tick is journalled -/
  | capture (name token : Str) (mtime : BitVec 64)
  /-- files are touched, converted or removed -/
  | files (dataDir : List (DirEntry (List Str)))

/-- The tick is in the file of this name afterwards. -/
def record (dataDir : List (DirEntry (List Str))) (name token : Str) (mtime : BitVec 64) :
    List (DirEntry (List Str)) :=
  if dataDir.any fun entry => entry.name = name then
    dataDir.map fun entry =>
      if entry.name = name then
        { entry with lastWriteTime := some mtime, content := entry.content ++ [token] }
      else entry
  else dataDir ++ [⟨name, true, some mtime, true, [token]⟩]

/-- The token has a tick in some file. -/
def Referenced (dataDir : List (DirEntry (List Str))) (token : Str) : Prop :=
  ∃ entry ∈ dataDir, token ∈ entry.content

instance (dataDir : List (DirEntry (List Str))) (token : Str) :
    Decidable (Referenced dataDir token) :=
  inferInstanceAs (Decidable (∃ entry ∈ dataDir, token ∈ entry.content))

/-- The rows that a retention pass at `time` drops. -/
def expiredRows (cfg : Config) (csv : Option Str) (time : Int) : List TokenMeta :=
  (readCsvTokens csv).filter fun m => !keptFrom (isoDateDaysAgo time cfg.retentionDays) m

namespace System

/-- An empty data directory. -/
def new : System := ⟨none, [], [], [], 0, .down, [], []⟩

/-- The boot sequence, up to the start of the threads. -/
def boot (cfg : Config) (s : System) (fresh : List TokenMeta) (steady : Int) : System :=
  let csv := some (mergeAndWriteMetadataCsv s.csv fresh)
  { s with
    csv := csv
    knownIds := tokens (filterByQuestion fresh cfg.filterStr)
    metadataKnown := tokens (readCsvTokens csv)
    lastRetention := steady - oneHour
    phase := .sleeping
    listing := tokens fresh
    dropped := [] }

/-- The cycle takes its next step. -/
def stepCycle (cfg : Config) (s : System) (steady time : Int) (now : BitVec 64) : Option System :=
  match s.phase with
  | .append fresh =>
      let appended := appendNewMetadataCsv s.csv s.metadataKnown fresh
      some { s with
        csv := some appended.1
        metadataKnown := appended.2
        phase := .subscribe fresh }
  | .subscribe fresh =>
      some { s with
        knownIds := (newRows s.knownIds (filterByQuestion fresh cfg.filterStr)).2
        phase := .retention fresh }
  | .retention fresh =>
      if 0 < cfg.retentionDays.toInt ∧ oneHour ≤ steady - s.lastRetention then
        some { s with lastRetention := steady, phase := .pruneFiles fresh }
      else some { s with phase := .sleeping, listing := tokens fresh }
  | .pruneFiles fresh =>
      some { s with
        dataDir := pruneOldDataFiles now cfg.retentionDays s.dataDir
        phase := .pruneMetadata fresh }
  | .pruneMetadata fresh =>
      some { s with
        csv := pruneMetadataCsv s.csv (isoDateDaysAgo time cfg.retentionDays)
        phase := .sleeping
        listing := tokens fresh
        dropped := s.dropped ++ tokens (expiredRows cfg s.csv time) }
  | _ => none

def step (cfg : Config) (s : System) : Label → Option System
  | .boot fresh steady => some (s.boot cfg fresh steady)
  | .wake fresh =>
      match s.phase with
      | .sleeping => some (if fresh = [] then s else { s with phase := .append fresh })
      | _ => none
  | .step steady time now => s.stepCycle cfg steady time now
  | .capture name token mtime =>
      if s.phase ≠ .down ∧ token ∈ s.knownIds then
        some { s with dataDir := record s.dataDir name token mtime }
      else none
  | .files dataDir =>
      if ∀ entry ∈ dataDir, ∀ token ∈ entry.content, Referenced s.dataDir token then
        some { s with dataDir := dataDir }
      else none

/-- All sessions on one data directory. -/
def machine (cfg : Config) : Machine System Label := ⟨step cfg⟩

/-! ## What a step does -/

/-- All that a step can do. -/
inductive Steps (cfg : Config) (s : System) : Label → System → Prop
  | boot {fresh : List TokenMeta} {steady : Int} :
    Steps cfg s (.boot fresh steady) (s.boot cfg fresh steady)
  | skip : s.phase = .sleeping → Steps cfg s (.wake []) s
  | wake {fresh : List TokenMeta} :
    s.phase = .sleeping → fresh ≠ [] →
    Steps cfg s (.wake fresh) { s with phase := .append fresh }
  | append {fresh : List TokenMeta} {steady time : Int} {now : BitVec 64} :
    s.phase = .append fresh →
    Steps cfg s (.step steady time now)
      { s with
        csv := some (appendNewMetadataCsv s.csv s.metadataKnown fresh).1
        metadataKnown := (appendNewMetadataCsv s.csv s.metadataKnown fresh).2
        phase := .subscribe fresh }
  | subscribe {fresh : List TokenMeta} {steady time : Int} {now : BitVec 64} :
    s.phase = .subscribe fresh →
    Steps cfg s (.step steady time now)
      { s with
        knownIds := (newRows s.knownIds (filterByQuestion fresh cfg.filterStr)).2
        phase := .retention fresh }
  | notDue {fresh : List TokenMeta} {steady time : Int} {now : BitVec 64} :
    s.phase = .retention fresh →
    ¬ (0 < cfg.retentionDays.toInt ∧ oneHour ≤ steady - s.lastRetention) →
    Steps cfg s (.step steady time now) { s with phase := .sleeping, listing := tokens fresh }
  | due {fresh : List TokenMeta} {steady time : Int} {now : BitVec 64} :
    s.phase = .retention fresh →
    0 < cfg.retentionDays.toInt ∧ oneHour ≤ steady - s.lastRetention →
    Steps cfg s (.step steady time now)
      { s with lastRetention := steady, phase := .pruneFiles fresh }
  | pruneFiles {fresh : List TokenMeta} {steady time : Int} {now : BitVec 64} :
    s.phase = .pruneFiles fresh →
    Steps cfg s (.step steady time now)
      { s with
        dataDir := pruneOldDataFiles now cfg.retentionDays s.dataDir
        phase := .pruneMetadata fresh }
  | pruneMetadata {fresh : List TokenMeta} {steady time : Int} {now : BitVec 64} :
    s.phase = .pruneMetadata fresh →
    Steps cfg s (.step steady time now)
      { s with
        csv := pruneMetadataCsv s.csv (isoDateDaysAgo time cfg.retentionDays)
        phase := .sleeping
        listing := tokens fresh
        dropped := s.dropped ++ tokens (expiredRows cfg s.csv time) }
  | capture {name token : Str} {mtime : BitVec 64} :
    s.phase ≠ .down → token ∈ s.knownIds →
    Steps cfg s (.capture name token mtime)
      { s with dataDir := record s.dataDir name token mtime }
  | files {dataDir : List (DirEntry (List Str))} :
    (∀ entry ∈ dataDir, ∀ token ∈ entry.content, Referenced s.dataDir token) →
    Steps cfg s (.files dataDir) { s with dataDir := dataDir }

theorem steps_of_stepCycle {cfg : Config} {s s' : System} {steady time : Int} {now : BitVec 64}
    (step : s.stepCycle cfg steady time now = some s') :
    s.Steps cfg (.step steady time now) s' := by
  unfold stepCycle at step
  cases state : s.phase with
  | append fresh =>
      rw [state] at step
      cases step
      exact .append state
  | subscribe fresh =>
      rw [state] at step
      cases step
      exact .subscribe state
  | retention fresh =>
      rw [state] at step
      dsimp only at step
      split at step <;> cases step
      · exact .due state ‹_›
      · exact .notDue state ‹_›
  | pruneFiles fresh =>
      rw [state] at step
      cases step
      exact .pruneFiles state
  | pruneMetadata fresh =>
      rw [state] at step
      cases step
      exact .pruneMetadata state
  | sleeping =>
      rw [state] at step
      cases step
  | down =>
      rw [state] at step
      cases step

theorem steps_of_step {cfg : Config} {s s' : System} {l : Label}
    (step : (machine cfg).step s l = some s') : s.Steps cfg l s' := by
  cases l with
  | boot fresh steady =>
      cases step
      exact .boot
  | wake fresh =>
      simp only [machine, System.step] at step
      split at step
      · rename_i state
        cases step
        split
        · rename_i nothing
          subst nothing
          exact .skip state
        · exact .wake state ‹_›
      · cases step
  | step steady time now => exact steps_of_stepCycle step
  | capture name token mtime =>
      simp only [machine, System.step] at step
      split at step
      · rename_i running
        cases step
        exact .capture running.1 running.2
      · cases step
  | files dataDir =>
      simp only [machine, System.step] at step
      split at step
      · cases step
        exact .files ‹_›
      · cases step

end System

end Tickscope.Harvester
