import Tickscope.Gateway.MergeLaw
import Tickscope.Harvester.Rediscovery

/-!
# One metadata row per token

The sessions on one data directory as they see `market_metadata.csv`: as the rows last written to
it. A merge rebuilds the table, an append is guarded by `metadata_known`, a prune drops rows
behind it. Every token with a row is known while a session runs (`MetadataStore.Inv`), so no order
of the three repeats a token: `one_row_per_token`. The harvester with its files and phases does
nothing else to the table, as long as its rows can be stored: `System.simulates_store`.
-/

namespace Tickscope.Harvester

open Tickscope.Gateway Tickscope.Lib

/-! ## Sessions -/

structure MetadataStore where
  /-- the rows last written, if there is a file -/
  rows : Option (List TokenMeta)
  metadataKnown : List Str
  /-- a session has booted -/
  running : Bool
deriving DecidableEq

inductive MetadataEvent where
  /-- a session starts: the merge, and the seed of `metadata_known` -/
  | boot (fresh : List TokenMeta)
  /-- a re-discovery cycle, which is skipped when nothing is fetched -/
  | rediscover (fresh : List TokenMeta)
  | prune (cutoff : Str)

namespace MetadataStore

/-- `read_csv_tokens`. -/
def readRows (s : MetadataStore) : List TokenMeta := s.rows.getD []

def boot (s : MetadataStore) (fresh : List TokenMeta) : MetadataStore :=
  let merged := mergeRows s.readRows fresh
  ⟨some merged, tokens merged, true⟩

def append (s : MetadataStore) (fresh : List TokenMeta) : MetadataStore :=
  let new := newRows s.metadataKnown fresh
  { s with rows := some (s.readRows ++ new.1), metadataKnown := new.2 }

def prune (s : MetadataStore) (cutoff : Str) : MetadataStore :=
  let kept := s.readRows.filter (keptFrom cutoff)
  if kept.length = s.readRows.length then s else { s with rows := some kept }

def step (s : MetadataStore) : MetadataEvent → Option MetadataStore
  | .boot fresh => some (s.boot fresh)
  | .rediscover fresh =>
      if s.running then some (if fresh = [] then s else s.append fresh) else none
  | .prune cutoff => if s.running then some (s.prune cutoff) else none

def machine : Machine MetadataStore MetadataEvent := ⟨step⟩

/-- A data directory before its first session. -/
def new (rows : Option (List TokenMeta)) : MetadataStore := ⟨rows, [], false⟩

/-! ## The invariant -/

structure Inv (s : MetadataStore) : Prop where
  distinct : (tokens s.readRows).Nodup
  known : s.running → tokens s.readRows ⊆ s.metadataKnown

theorem Inv.boot {s : MetadataStore} (inv : s.Inv) (fresh : List TokenMeta) :
    (s.boot fresh).Inv :=
  ⟨(mergeLaw inv.distinct fresh).distinct, fun _ => List.Subset.refl _⟩

theorem Inv.append {s : MetadataStore} (inv : s.Inv) (running : s.running)
    (fresh : List TokenMeta) : (s.append fresh).Inv := by
  have known := inv.known running
  rcases nodup_newRows s.metadataKnown fresh with ⟨nodup, unknown⟩
  have rows : tokens (s.append fresh).readRows =
      tokens s.readRows ++ tokens (newRows s.metadataKnown fresh).1 := List.map_append
  constructor
  · rw [rows, List.nodup_append]
    refine ⟨inv.distinct, nodup, fun token old other new same => ?_⟩
    subst same
    exact unknown token new (known old)
  · intro _ token mem
    rw [rows, List.mem_append] at mem
    exact (mem_known_newRows s.metadataKnown fresh token).mpr (mem.imp_left fun old => known old)

theorem Inv.prune {s : MetadataStore} (inv : s.Inv) (cutoff : Str) : (s.prune cutoff).Inv := by
  have sub : (tokens (s.readRows.filter (keptFrom cutoff))).Sublist (tokens s.readRows) :=
    List.filter_sublist.map TokenMeta.tokenId
  unfold MetadataStore.prune
  dsimp only
  split
  · exact inv
  · refine ⟨inv.distinct.sublist sub, fun running => ?_⟩
    exact List.Subset.trans sub.subset (inv.known running)

theorem keeps_inv : machine.Keeps (fun _ _ => True) Inv := by
  intro s event s' inv _ step
  cases event with
  | boot fresh =>
      cases step
      exact inv.boot fresh
  | rediscover fresh =>
      simp only [machine, MetadataStore.step] at step
      split at step
      · rename_i running
        cases step
        split
        · exact inv
        · exact inv.append running fresh
      · cases step
  | prune cutoff =>
      simp only [machine, MetadataStore.step] at step
      split at step
      · cases step
        exact inv.prune cutoff
      · cases step

theorem inv_of_run {rows : Option (List TokenMeta)}
    (distinct : ∀ table, rows = some table → (tokens table).Nodup) {events : List MetadataEvent}
    {s : MetadataStore} (reached : machine.run (new rows) events = some s) : s.Inv := by
  have start : (new rows).Inv := by
    refine ⟨?_, nofun⟩
    cases rows with
    | none => exact List.nodup_nil
    | some table => exact distinct table rfl
  exact keeps_inv.run start (Machine.along_of_forall_mem (fun _ _ _ => True.intro) _) reached

end MetadataStore

/-! ## The backtest's join -/

/-- The join of `_create_ticks_table`, with all columns of both sides. -/
def createTicksTable {T : Type} (assetId : T → Str) (parquet : List T)
    (metadata : List TokenMeta) : List (T × Option TokenMeta) :=
  leftJoin assetId TokenMeta.tokenId parquet metadata

/-- **One row per token.** No sequence of sessions, whatever they fetch, gives a token a second
row, and so the backtest's join has every tick once. -/
theorem one_row_per_token (rows : Option (List TokenMeta))
    (distinct : ∀ table, rows = some table → (tokens table).Nodup) (events : List MetadataEvent)
    (s : MetadataStore) (reached : MetadataStore.machine.run (.new rows) events = some s) :
    (tokens s.readRows).Nodup ∧
      ∀ {T : Type} (assetId : T → Str) (parquet : List T),
        createTicksTable assetId parquet s.readRows =
          parquet.map fun t => (t, row s.readRows (assetId t)) := by
  have nodup := (MetadataStore.inv_of_run distinct reached).distinct
  exact ⟨nodup, fun assetId parquet => leftJoin_of_nodup assetId parquet nodup⟩

/-- A file with one row, a token that is fetched twice, and one that returns in a later session
after its row was dropped. -/
theorem one_row_per_token_returns :
    let one : TokenMeta := ⟨ascii "1", ascii "a", ascii "YES", [], ascii "2025-01-01", true, 0⟩
    let two : TokenMeta := ⟨ascii "2", ascii "b", ascii "YES", [], [], true, 0⟩
    let events : List MetadataEvent :=
      [.boot [two], .rediscover [], .prune (ascii "2026-01-01"), .boot [],
        .rediscover [one, two, one]]
    ∃ s, MetadataStore.machine.run (.new (some [one])) events = some s ∧
      tokens s.readRows = [ascii "2", ascii "1"] ∧
      (tokens s.readRows).Nodup ∧
      ∀ {T : Type} (assetId : T → Str) (parquet : List T),
        createTicksTable assetId parquet s.readRows =
          parquet.map fun t => (t, row s.readRows (assetId t)) := by
  intro one two events
  have distinct : ∀ table, some [one] = some table → (tokens table).Nodup := by
    intro table same
    cases same
    decide
  exact ⟨_, rfl, by decide +kernel, one_row_per_token (some [one]) distinct events _ rfl⟩

/-! ## The files behind the table -/

/-- An upsert acts on rows as they are stored. -/
theorem upsert_stored (rows : List TokenMeta) (index : Index) (m : TokenMeta) :
    upsert (rows.map TokenMeta.stored, index) m.stored =
      ((upsert (rows, index) m).1.map TokenMeta.stored, (upsert (rows, index) m).2) := by
  have token : m.stored.tokenId = m.tokenId := rfl
  unfold upsert
  rw [token]
  dsimp only
  cases index.lookup m.tokenId with
  | some i => simp
  | none => simp

theorem indexFrom_stored (i : Nat) (index : Index) (rows : List TokenMeta) :
    indexFrom i index (rows.map TokenMeta.stored) = indexFrom i index rows := by
  induction rows generalizing i index with
  | nil => rfl
  | cons m rows ih => exact ih (i + 1) (index.insert m.tokenId i)

theorem foldl_upsert_stored (fresh rows : List TokenMeta) (index : Index) :
    (fresh.map TokenMeta.stored).foldl upsert (rows.map TokenMeta.stored, index) =
      ((fresh.foldl upsert (rows, index)).1.map TokenMeta.stored,
        (fresh.foldl upsert (rows, index)).2) := by
  induction fresh generalizing rows index with
  | nil => rfl
  | cons m fresh ih =>
      rw [List.map_cons, List.foldl_cons, upsert_stored, ih]
      rfl

theorem delist_stored (fresh : List TokenMeta) (m : TokenMeta) :
    delist (fresh.map TokenMeta.stored) m.stored = (delist fresh m).stored := by
  by_cases mem : m.tokenId ∈ tokens fresh
  · rw [delist_of_mem mem, delist_of_mem]
    rw [tokens_stored]
    exact mem
  · rw [delist_of_not_mem mem, delist_of_not_mem]
    · rfl
    · rw [tokens_stored]
      exact mem

theorem mergeRows_stored (existing fresh : List TokenMeta) :
    mergeRows (existing.map TokenMeta.stored) (fresh.map TokenMeta.stored) =
      (mergeRows existing fresh).map TokenMeta.stored := by
  unfold mergeRows
  rw [indexFrom_stored, foldl_upsert_stored, List.map_map, List.map_map]
  exact List.map_congr_left fun m _ => delist_stored fresh m

theorem newRows_stored (known : List Str) (fresh : List TokenMeta) :
    newRows known (fresh.map TokenMeta.stored) =
      ((newRows known fresh).1.map TokenMeta.stored, (newRows known fresh).2) := by
  induction fresh generalizing known with
  | nil => rfl
  | cons m fresh ih =>
      have token : m.stored.tokenId = m.tokenId := rfl
      rw [List.map_cons, newRows, newRows, token]
      split
      · exact ih known
      · rw [ih]
        rfl

theorem map_stored_of_rows {csv : Option Str} (ok : CsvOk csv) :
    (readCsvTokens csv).map TokenMeta.stored = readCsvTokens csv := by
  have again := readCsvTokens_encode ok.rows
  rw [← ok.text] at again
  exact again.symm

namespace System

/-- What a step of the harvester does to the table. -/
def tableEvents (cfg : Config) (s : System) : Label → List MetadataEvent
  | .boot fresh _ => [.boot (fresh.map TokenMeta.stored)]
  | .step _ time _ =>
      match s.phase with
      | .append fresh => [.rediscover (fresh.map TokenMeta.stored)]
      | .pruneMetadata _ => [.prune (isoDateDaysAgo time cfg.retentionDays)]
      | _ => []
  | _ => []

/-- The fetched rows can be stored. -/
def Storable (_ : System) : Label → Prop
  | .boot fresh _ => ∀ m ∈ fresh, RowOk m
  | .wake fresh => ∀ m ∈ fresh, RowOk m
  | _ => True

/-- The store has the rows of the file. -/
structure Shows (s : System) (store : MetadataStore) : Prop where
  rows : store.readRows = readCsvTokens s.csv
  csv : s.phase = .down ∧ s.csv = none ∨ CsvOk s.csv
  known : store.metadataKnown = s.metadataKnown
  running : s.phase ≠ .down → store.running = true
  fresh : ∀ fresh, s.phase = .append fresh → fresh ≠ [] ∧ ∀ m ∈ fresh, RowOk m

theorem Shows.csvOk {s : System} {store : MetadataStore} (shows : s.Shows store)
    (up : s.phase ≠ .down) : CsvOk s.csv :=
  shows.csv.resolve_left fun down => up down.1

/-- A step that leaves the table alone. -/
theorem Shows.frame {s s' : System} {store : MetadataStore} (shows : s.Shows store)
    (csv : s'.csv = s.csv) (known : s'.metadataKnown = s.metadataKnown)
    (down : s'.phase = .down ↔ s.phase = .down)
    (fresh : ∀ fresh, s'.phase = .append fresh → fresh ≠ [] ∧ ∀ m ∈ fresh, RowOk m) :
    s'.Shows store where
  rows := csv ▸ shows.rows
  csv := by
    rw [down, csv]
    exact shows.csv
  known := known ▸ shows.known
  running := fun up => shows.running fun was => up (down.mpr was)
  fresh := fresh

theorem Shows.boot {s : System} {store : MetadataStore} (shows : s.Shows store) (cfg : Config)
    {fresh : List TokenMeta} (new : ∀ m ∈ fresh, RowOk m) (steady : Int) :
    (s.boot cfg fresh steady).Shows (store.boot (fresh.map TokenMeta.stored)) := by
  have existing : (∀ m ∈ readCsvTokens s.csv, RowOk m) ∧
      (readCsvTokens s.csv).map TokenMeta.stored = readCsvTokens s.csv := by
    rcases shows.csv with ⟨-, none⟩ | ok
    · rw [none]
      exact ⟨nofun, rfl⟩
    · exact ⟨ok.rows, map_stored_of_rows ok⟩
  have ok := rowOk_mergeRows existing.1 new
  have read : readCsvTokens (some (mergeAndWriteMetadataCsv s.csv fresh)) =
      mergeRows (readCsvTokens s.csv) (fresh.map TokenMeta.stored) := by
    rw [mergeAndWriteMetadataCsv, readCsvTokens_encode ok, ← mergeRows_stored, existing.2]
  refine ⟨?_, .inr (csvOk_encode ok), ?_, fun _ => rfl, nofun⟩
  · show mergeRows store.readRows _ = readCsvTokens (some (mergeAndWriteMetadataCsv s.csv fresh))
    rw [read, shows.rows]
  · show tokens (mergeRows store.readRows _) =
      tokens (readCsvTokens (some (mergeAndWriteMetadataCsv s.csv fresh)))
    rw [read, shows.rows]

theorem Shows.append {s : System} {store : MetadataStore} (shows : s.Shows store)
    {fresh : List TokenMeta} (state : s.phase = .append fresh) :
    ({ s with
        csv := some (appendNewMetadataCsv s.csv s.metadataKnown fresh).1
        metadataKnown := (appendNewMetadataCsv s.csv s.metadataKnown fresh).2
        phase := .subscribe fresh } : System).Shows (store.append (fresh.map TokenMeta.stored)) := by
  have up : s.phase ≠ .down := by
    rw [state]
    exact nofun
  have ok := shows.csvOk up
  have new := (shows.fresh fresh state).2
  have rows : ∀ m ∈ readCsvTokens s.csv ++ (newRows s.metadataKnown fresh).1, RowOk m := by
    intro m mem
    exact (List.mem_append.mp mem).elim (ok.rows m) fun mem => new m (newRows_subset _ fresh mem)
  refine ⟨?_, .inr (appendNew_spec ok s.metadataKnown new).1, ?_, fun _ => shows.running up, nofun⟩
  · show store.readRows ++ (newRows store.metadataKnown _).1 =
      readCsvTokens (some (appendNewMetadataCsv s.csv s.metadataKnown fresh).1)
    rw [appendNew_encode ok, readCsvTokens_encode rows, List.map_append, map_stored_of_rows ok,
      newRows_stored, shows.rows, shows.known]
  · show (newRows store.metadataKnown _).2 = (newRows s.metadataKnown fresh).2
    rw [newRows_stored, shows.known]

theorem Shows.prune {s : System} {store : MetadataStore} (shows : s.Shows store)
    (up : s.phase ≠ .down) (cutoff : Str) {s' : System}
    (csv : s'.csv = pruneMetadataCsv s.csv cutoff) (known : s'.metadataKnown = s.metadataKnown)
    (sleeping : s'.phase = .sleeping) : s'.Shows (store.prune cutoff) := by
  have ok := shows.csvOk up
  have kept : ∀ m ∈ (readCsvTokens s.csv).filter (keptFrom cutoff), RowOk m := fun m mem =>
    ok.rows m (List.mem_filter.mp mem).1
  have stored : ((readCsvTokens s.csv).filter (keptFrom cutoff)).map TokenMeta.stored =
      (readCsvTokens s.csv).filter (keptFrom cutoff) := by
    conv_rhs => rw [← map_stored_of_rows ok]
    rw [List.filter_map]
    rfl
  have same : (store.prune cutoff).readRows = readCsvTokens (pruneMetadataCsv s.csv cutoff) ∧
      (store.prune cutoff).metadataKnown = store.metadataKnown ∧
      (store.prune cutoff).running = store.running := by
    unfold MetadataStore.prune pruneMetadataCsv
    dsimp only
    rw [shows.rows]
    split
    · exact ⟨shows.rows, rfl, rfl⟩
    · rw [readCsvTokens_encode kept, stored]
      exact ⟨rfl, rfl, rfl⟩
  refine ⟨csv ▸ same.1, .inr (csv ▸ (prune_spec ok cutoff).1), ?_, fun _ => ?_,
    fun fresh state => ?_⟩
  · rw [same.2.1, known, shows.known]
  · rw [same.2.2, shows.running up]
  · rw [sleeping] at state
    cases state

theorem new_shows : new.Shows (.new none) where
  rows := rfl
  csv := .inl ⟨rfl, rfl⟩
  known := rfl
  running := fun up => (up rfl).elim
  fresh := nofun

/-- A step that the table does not see. -/
theorem unseen {s' : System} {store : MetadataStore} (shows : s'.Shows store) :
    ∃ (events : List MetadataEvent) (store' : MetadataStore),
      MetadataStore.machine.run store events = some store' ∧
        MetadataStore.machine.trace (fun _ event => [event]) store events = [] ∧
          s'.Shows store' :=
  ⟨[], store, rfl, rfl, shows⟩

/-- A step that the table sees as one event. -/
theorem seen {s' : System} {store store' : MetadataStore} {event : MetadataEvent}
    (step : store.step event = some store') (shows : s'.Shows store') :
    ∃ (events : List MetadataEvent) (store' : MetadataStore),
      MetadataStore.machine.run store events = some store' ∧
        MetadataStore.machine.trace (fun _ event => [event]) store events = [event] ∧
          s'.Shows store' := by
  have step : MetadataStore.machine.step store event = some store' := step
  have run : MetadataStore.machine.run store [event] = some store' :=
    Machine.run_cons_eq_some.mpr ⟨store', step, rfl⟩
  exact ⟨[event], store', run, Machine.trace_labels run, shows⟩

/-- **Refinement.** As long as its rows can be stored, the harvester does to the file what its
merges, appends and prunes do to the table. -/
theorem simulates_store (cfg : Config) :
    (machine cfg).Simulates (tableEvents cfg) MetadataStore.machine (fun _ event => [event])
      Storable Shows := by
  intro s store label s' shows storable step
  unfold tableEvents
  cases steps_of_step step with
  | boot => exact seen rfl (shows.boot cfg storable _)
  | skip => exact unseen shows
  | wake state nonempty =>
      refine unseen (shows.frame rfl rfl (by rw [state]; exact iff_of_false nofun nofun) ?_)
      intro fresh' same
      cases same
      exact ⟨nonempty, storable⟩
  | @append fresh _ _ _ state =>
      dsimp only
      rw [state]
      have running := shows.running (by rw [state]; exact nofun)
      refine seen ?_ (shows.append state)
      have nonempty : fresh.map TokenMeta.stored ≠ [] := fun none =>
        (shows.fresh fresh state).1 (List.map_eq_nil_iff.mp none)
      rw [MetadataStore.step, if_pos running, if_neg nonempty]
  | subscribe state | notDue state | due state | pruneFiles state =>
      dsimp only
      rw [state]
      exact unseen (shows.frame rfl rfl (by rw [state]; exact iff_of_false nofun nofun) nofun)
  | @pruneMetadata fresh _ time _ state =>
      dsimp only
      rw [state]
      have up : s.phase ≠ .down := by
        rw [state]
        exact nofun
      refine seen ?_ (shows.prune up (isoDateDaysAgo time cfg.retentionDays) rfl rfl rfl)
      rw [MetadataStore.step, if_pos (shows.running up)]
  | capture => exact unseen (shows.frame rfl rfl Iff.rfl shows.fresh)
  | files => exact unseen (shows.frame rfl rfl Iff.rfl shows.fresh)

/-- What is read from the file never has a token twice. -/
theorem nodup_of_run (cfg : Config) {labels : List Label} {s : System}
    (storable : (machine cfg).Along Storable new labels)
    (reached : (machine cfg).run new labels = some s) : (tokens (readCsvTokens s.csv)).Nodup := by
  obtain ⟨events, store, run, -, shows⟩ := (simulates_store cfg).run new_shows storable reached
  have absent : ∀ table, none = some table → (tokens table).Nodup := by
    intro table same
    cases same
  have inv := MetadataStore.inv_of_run absent run
  exact shows.rows ▸ inv.distinct

end System

end Tickscope.Harvester
