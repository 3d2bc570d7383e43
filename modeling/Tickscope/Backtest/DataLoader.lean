import Mathlib.Data.List.Flatten
import Mathlib.Data.Multiset.Basic
import Tickscope.Journal.LogToParquet
import Tickscope.Lib.KeyedTable
import Tickscope.Lib.Machine

/-!
# The tick cache

`research/backtest/data_loader.py` keeps the joined ticks in a database file. A session that finds
the table there compares its number of rows with that of the parquet files, and keeps it unless the
files have more. `fresh_iff` says in which sequences of sessions no session works on the ticks of
files that are gone, and `fresh_of_growing` that these are among them in which files are only added.
-/

namespace Tickscope.Backtest

open Tickscope.Journal Tickscope.Lib

/-- A row of the metadata CSV; an empty field is null. -/
structure MetadataRow where
  assetId : Option (List Char)
  conditionId : Option (List Char)
  outcome : Option (List Char)
  question : Option (List Char)
  endDate : Option (List Char)
  takerFeeBps : Option Int
deriving DecidableEq

/-- A row of the table `ticks`. -/
structure CachedRow (D : Type) where
  tsMs : Nat
  price : D
  size : D
  bestBid : D
  bestAsk : D
  side : Option Side
  eventType : Option EventType
  assetId : List Char
  conditionId : Option (List Char)
  outcome : Option (List Char)
  question : Option (List Char)
  endDate : Option (List Char)
  feeBps : Int
deriving DecidableEq

/-- The files in `parquet_dir` with what `read_parquet` makes of each, and what `read_csv` makes of
`metadata_csv`: the rows, or nothing when it raises. -/
structure Disk (D : Type) where
  files : List (Str × Option (List (Row D)))
  metadata : Option (List MetadataRow)

variable {D : Type}

namespace Disk

/-! ## The join -/

/-- `polymarket_*.parquet`. -/
def inGlob (name : Str) : Bool :=
  (ascii "polymarket_").isPrefixOf name &&
    (ascii ".parquet").isSuffixOf (name.drop (ascii "polymarket_").length)

/-- `read_parquet`, which raises when no file is in the glob. -/
def readParquet (disk : Disk D) : Option (List (Row D)) :=
  match disk.files.filter fun file => inGlob file.1 with
  | [] => none
  | files => (files.mapM Prod.snd).map List.flatten

/-- The columns that `_create_ticks_table` selects; a fee that is not an `INT` raises. -/
def select (t : Row D) (m : Option MetadataRow) : Option (CachedRow D) :=
  let feeBps := (m.bind (·.takerFeeBps)).getD 0
  if -2 ^ 31 ≤ feeBps ∧ feeBps < 2 ^ 31 then
    some ⟨t.timestampNs / 10 ^ 6, t.price, t.size, t.bestBid, t.bestAsk, t.side, t.eventType,
      t.assetId, m.bind (·.conditionId), m.bind (·.outcome), m.bind (·.question),
      m.bind (·.endDate), feeBps⟩
  else none

/-- `FROM read_parquet(...) t LEFT JOIN read_csv(...) m ON t.asset_id = m.asset_id`. -/
def join (rows : List (Row D)) (metadata : List MetadataRow) :
    List (Row D × Option MetadataRow) :=
  leftJoin (fun t => some t.assetId) MetadataRow.assetId rows metadata

/-- The rows of the table that `_create_ticks_table` creates. A table has no order. -/
def createTicksTable (disk : Disk D) : Option (Multiset (CachedRow D)) :=
  disk.readParquet.bind fun rows =>
  disk.metadata.bind fun metadata =>
  ((join rows metadata).mapM fun row => select row.1 row.2).map Multiset.ofList

end Disk

/-- The table `ticks` in the database, with the files that it was created from, of which the
database has no record. -/
structure Ticks (D : Type) where
  disk : Disk D
  rows : Multiset (CachedRow D)
  created : disk.createTicksTable = some rows

/-! ## Sessions -/

/-- The database file, what is on disk while the session lasts, and the session's `_loaded`. -/
structure DataLoader (D : Type) where
  disk : Disk D
  ticks : Option (Ticks D)
  loaded : Bool

/-- What the sessions on one database file do. A `done` says that the database gets through with
`CREATE TABLE`, for which memory or time may not suffice. -/
inductive Label (D : Type) where
  /-- the last session is over, and a new one finds these files -/
  | session (disk : Disk D)
  /-- `con`, in any method -/
  | con (done : Bool)
  /-- `reload` -/
  | reload (conDone done : Bool)

namespace DataLoader

/-- A first session, which may find a table from before. -/
def new (disk : Disk D) (ticks : Option (Ticks D)) : DataLoader D := ⟨disk, ticks, false⟩

/-- `DROP TABLE ticks`. -/
def drop (s : DataLoader D) : DataLoader D := { s with ticks := none }

/-- `_create_ticks_table`, and `_loaded = True` unless it raises. -/
def create (s : DataLoader D) (done : Bool) : DataLoader D :=
  match same : s.disk.createTicksTable with
  | some rows => if done then { s with ticks := some ⟨s.disk, rows, same⟩, loaded := true } else s
  | none => s

/-- `_load`. -/
def load (s : DataLoader D) (done : Bool) : DataLoader D :=
  match s.ticks with
  | some table =>
      match s.disk.readParquet with
      | some rows =>
          if rows.length ≤ table.rows.card then { s with loaded := true } else s.drop.create done
      | none => s
  | none => s.create done

/-- `con`, which has been obtained when `loaded` is set. -/
def con (s : DataLoader D) (done : Bool) : DataLoader D := if s.loaded then s else s.load done

def reload (s : DataLoader D) (conDone done : Bool) : DataLoader D :=
  let s := s.con conDone
  if s.loaded then { s.drop with loaded := false }.create done else s

def step (s : DataLoader D) : Label D → DataLoader D
  | .session disk => { s with disk, loaded := false }
  | .con done => s.con done
  | .reload conDone done => s.reload conDone done

/-! ## Freshness -/

/-- A session that has obtained `con` has the table that would be created now. -/
def Fresh (s : DataLoader D) : Prop :=
  s.loaded = true → ∃ table, s.ticks = some table ∧ s.disk.createTicksTable = some table.rows

/-- A session that comes to compare the numbers of rows finds more in the files, or the files give
the same ticks as those from which the table was created. -/
def Covered (s : DataLoader D) : Label D → Prop
  | .con _ => s.loaded = false → ∀ table rows, s.ticks = some table →
      s.disk.readParquet = some rows → table.rows.card < rows.length ∨
        s.disk.createTicksTable = table.disk.createTicksTable
  | _ => True

theorem not_fresh_of_ne {s : DataLoader D} (loaded : s.loaded = true)
    (ne : s.ticks.map (·.rows) ≠ s.disk.createTicksTable) : ¬ s.Fresh := by
  intro fresh
  rcases fresh loaded with ⟨table, stored, created⟩
  rw [stored, created] at ne
  exact ne rfl

theorem fresh_create (s : DataLoader D) (idle : s.loaded = false) (done : Bool) :
    (s.create done).Fresh := by
  unfold create
  split
  · rename_i rows same
    cases done with
    | true => exact fun _ => ⟨⟨s.disk, rows, same⟩, rfl, same⟩
    | false => exact fun loaded => absurd (idle.symm.trans loaded) nofun
  · exact fun loaded => absurd (idle.symm.trans loaded) nofun

theorem fresh_load_iff (s : DataLoader D) (idle : s.loaded = false) (done : Bool) :
    (s.load done).Fresh ↔ s.Covered (.con done) := by
  cases stored : s.ticks with
  | none =>
      rw [load, stored]
      exact iff_of_true (fresh_create s idle done) fun _ table rows found => by
        rw [stored] at found
        cases found
  | some table =>
      cases read : s.disk.readParquet with
      | none =>
          simp only [load, stored, read]
          refine iff_of_true (fun loaded => absurd (idle.symm.trans loaded) nofun) ?_
          intro _ table rows _ read'
          rw [read] at read'
          cases read'
      | some rows =>
          have covered : s.Covered (.con done) ↔ table.rows.card < rows.length ∨
              s.disk.createTicksTable = table.disk.createTicksTable := by
            refine ⟨fun all => all idle table rows stored read, ?_⟩
            intro either _ table' rows' found read'
            cases stored.symm.trans found
            cases read.symm.trans read'
            exact either
          rw [covered, load, stored, read]
          dsimp only
          by_cases kept : rows.length ≤ table.rows.card
          · rw [if_pos kept, or_iff_right (not_lt.mpr kept), table.created]
            constructor
            · intro fresh
              rcases fresh rfl with ⟨table', found, same⟩
              cases found
              exact same
            · exact fun same _ => ⟨table, rfl, same⟩
          · rw [if_neg kept]
            exact iff_of_true (fresh_create s.drop idle done) (.inl (not_le.mp kept))

/-- A step keeps the table fresh exactly under the condition. -/
theorem fresh_step_iff {s : DataLoader D} (fresh : s.Fresh) (l : Label D) :
    (s.step l).Fresh ↔ s.Covered l := by
  cases l with
  | session disk => exact iff_of_true nofun True.intro
  | con done =>
      show (s.con done).Fresh ↔ _
      unfold con
      split
      · rename_i loaded
        exact iff_of_true fresh fun idle => absurd (loaded.symm.trans idle) nofun
      · rename_i idle
        exact fresh_load_iff s (Bool.eq_false_iff.mpr idle) done
  | reload conDone done =>
      refine iff_of_true ?_ True.intro
      show (s.reload conDone done).Fresh
      unfold reload
      dsimp only
      split
      · exact fresh_create _ rfl done
      · exact fun loaded => absurd loaded ‹_›

/-- **The cache is never stale** in a sequence of sessions exactly if each of them finds more rows
in the files than in the table, or files that give the ticks of the table. -/
theorem fresh_iff (disk : Disk D) (ticks : Option (Ticks D)) (labels : List (Label D)) :
    (∀ ls, ls <+: labels → (ls.foldl step (new disk ticks)).Fresh) ↔
      (Machine.ofFold step).Along Covered (new disk ticks) labels := by
  have everywhere : (Machine.ofFold step).Along (fun _ _ => True) (new disk ticks) labels :=
    Machine.along_of_forall_mem (fun _ _ _ => True.intro) _
  have always : (Machine.ofFold step).Always Fresh (new disk ticks) labels ↔
      (Machine.ofFold step).Along Covered (new disk ticks) labels := by
    refine Machine.always_iff_along (P := fun _ _ => True) (J := Fresh) ?_ (fun _ fresh => fresh)
      ?_ nofun everywhere (Machine.run_ofFold labels)
    · rintro s l s' fresh ⟨-, covered⟩ ⟨⟩
      exact (fresh_step_iff fresh l).mpr covered
    · rintro s l s' fresh - ⟨⟩ fresh'
      exact (fresh_step_iff fresh l).mp fresh'
  rw [← always, Machine.always_iff_forall_prefix]
  constructor
  · rintro fresh ls t begun reached
    cases (Machine.run_ofFold ls).symm.trans reached
    exact fresh ls begun
  · exact fun fresh ls begun => fresh ls _ begun (Machine.run_ofFold ls)

/-- A tick at one second, with a price. -/
def tickAt (second price : Nat) : Row Nat :=
  ⟨second * 10 ^ 9, price, 1, 0, 0, some .bid, some .lastTrade, ['7']⟩

/-- The first hour with its metadata; the second hour, when the first is gone; and the first hour
when the fee has changed. -/
def hours : Disk Nat × Disk Nat × Disk Nat :=
  let token : MetadataRow := ⟨some ['7'], some ['c'], some ['Y', 'E', 'S'], none, none, some 0⟩
  let first := (ascii "polymarket_1.parquet", some [tickAt 1 50])
  let second := (ascii "polymarket_2.parquet", some [tickAt 3601 60])
  (⟨[first], some [token]⟩, ⟨[second], some [token]⟩,
    ⟨[first], some [{ token with takerFeeBps := some 200 }]⟩)

/-- The second session works on ticks whose file is gone, or with fees that were changed. -/
theorem fresh_fails_after_replacement :
    ¬ ([.con true, .session hours.2.1, .con true].foldl step (new hours.1 none)).Fresh ∧
      ¬ ([.con true, .session hours.2.2, .con true].foldl step (new hours.1 none)).Fresh := by
  constructor
  · exact not_fresh_of_ne (by decide +kernel) (by decide +kernel)
  · exact not_fresh_of_ne (by decide +kernel) (by decide +kernel)

end DataLoader

/-! ## Files that are only added -/

namespace Disk

/-- Files have been added, and the metadata is what it was. -/
def Grows (disk disk' : Disk D) : Prop :=
  disk.files.Sublist disk'.files ∧ disk'.metadata = disk.metadata

theorem Grows.refl (disk : Disk D) : Grows disk disk := ⟨.refl _, rfl⟩

theorem Grows.trans {disk disk' disk'' : Disk D} (first : Grows disk disk')
    (later : Grows disk' disk'') : Grows disk disk'' :=
  ⟨first.1.trans later.1, later.2.trans first.2⟩

/-- No asset id has two rows. -/
def Distinct (disk : Disk D) : Prop :=
  ∀ metadata, disk.metadata = some metadata → (metadata.map MetadataRow.assetId).Nodup

theorem readParquet_eq_some {disk : Disk D} {rows : List (Row D)}
    (read : disk.readParquet = some rows) : ∃ contents,
      (disk.files.filter fun file => inGlob file.1).mapM Prod.snd = some contents ∧
        contents.flatten = rows := by
  unfold readParquet at read
  split at read
  · cases read
  · exact Option.map_eq_some_iff.mp read

theorem Grows.rows {disk disk' : Disk D} (grows : Grows disk disk') {rows rows' : List (Row D)}
    (read : disk.readParquet = some rows) (read' : disk'.readParquet = some rows') :
    rows.Sublist rows' := by
  rcases readParquet_eq_some read with ⟨contents, part, rfl⟩
  rcases readParquet_eq_some read' with ⟨contents', all, rfl⟩
  exact (sublist_of_mapM (grows.1.filter _) part all).flatten

theorem createTicksTable_eq_some {disk : Disk D} {ticks : Multiset (CachedRow D)}
    (created : disk.createTicksTable = some ticks) : ∃ rows metadata,
      disk.readParquet = some rows ∧ disk.metadata = some metadata ∧
        ticks.card = (join rows metadata).length := by
  rcases Option.bind_eq_some_iff.mp created with ⟨rows, read, created⟩
  rcases Option.bind_eq_some_iff.mp created with ⟨metadata, found, created⟩
  rcases Option.map_eq_some_iff.mp created with ⟨list, selected, rfl⟩
  exact ⟨rows, metadata, read, found, length_of_mapM selected⟩

/-- Without a repeated asset id the join has each tick once. -/
theorem length_join {metadata : List MetadataRow}
    (distinct : (metadata.map MetadataRow.assetId).Nodup) (rows : List (Row D)) :
    (join rows metadata).length = rows.length := by
  rw [join, leftJoin_of_nodup _ _ distinct, List.length_map]

end Disk

namespace DataLoader

open Disk

/-- The table comes from files that are still there. -/
def Grown (s : DataLoader D) : Prop :=
  s.disk.Distinct ∧ ∀ table, s.ticks = some table → table.disk.Grows s.disk

/-- A new session finds the files of the last one, and perhaps more. -/
def Adds (s : DataLoader D) : Label D → Prop
  | .session disk => s.disk.Grows disk
  | _ => True

theorem Grown.covered {s : DataLoader D} (grown : s.Grown) (l : Label D) : s.Covered l := by
  cases l with
  | con done =>
      intro _ table rows' stored read'
      have grows := grown.2 table stored
      rcases createTicksTable_eq_some table.created with ⟨rows, metadata, read, found, card⟩
      have found' : s.disk.metadata = some metadata := grows.2.trans found
      rw [length_join (grown.1 metadata found')] at card
      have sub := grows.rows read read'
      rw [card]
      rcases sub.length_le.lt_or_eq with lt | eq
      · exact .inl lt
      · refine .inr ?_
        rw [createTicksTable, createTicksTable, read, read', found, found', sub.eq_of_length eq]
  | session disk => exact True.intro
  | reload conDone done => exact True.intro

theorem disk_create (s : DataLoader D) (done : Bool) : (s.create done).disk = s.disk := by
  unfold create
  split
  · cases done <;> rfl
  · rfl

theorem ticks_create {s : DataLoader D} {done : Bool} {table : Ticks D}
    (stored : (s.create done).ticks = some table) : s.ticks = some table ∨ table.disk = s.disk := by
  unfold create at stored
  split at stored
  · cases done with
    | true =>
        cases stored
        exact .inr rfl
    | false => exact .inl stored
  · exact .inl stored

theorem Grown.create {s : DataLoader D} (grown : s.Grown) (done : Bool) :
    (s.create done).Grown := by
  rw [Grown, disk_create]
  refine ⟨grown.1, fun table stored => ?_⟩
  rcases ticks_create stored with old | new
  · exact grown.2 table old
  · rw [new]
    exact .refl _

theorem Grown.drop {s : DataLoader D} (grown : s.Grown) : s.drop.Grown := ⟨grown.1, nofun⟩

theorem Grown.con {s : DataLoader D} (grown : s.Grown) (done : Bool) : (s.con done).Grown := by
  unfold DataLoader.con load
  split
  · exact grown
  · split
    · split
      · split
        · exact grown
        · exact grown.drop.create done
      · exact grown
    · exact grown.create done

theorem Grown.step {s : DataLoader D} (grown : s.Grown) {l : Label D} (adds : s.Adds l) :
    (s.step l).Grown := by
  cases l with
  | session disk =>
      refine ⟨fun metadata found => grown.1 metadata (adds.2.symm.trans found), ?_⟩
      exact fun table stored => (grown.2 table stored).trans adds
  | con done => exact grown.con done
  | reload conDone done =>
      show (s.reload conDone done).Grown
      unfold reload
      dsimp only
      split
      · exact Grown.create (s := { (s.con conDone).drop with loaded := false })
          (grown.con conDone).drop done
      · exact grown.con conDone

/-- **Files that are only added** never leave the table stale, if the metadata stays as it is and
has no asset id twice. -/
theorem fresh_of_growing {disk : Disk D} (distinct : disk.Distinct) {labels : List (Label D)}
    (adds : (Machine.ofFold step).Along Adds (new disk none) labels) :
    (labels.foldl step (new disk none)).Fresh := by
  have grown : (new disk none).Grown := ⟨distinct, nofun⟩
  have keeps : (Machine.ofFold (step (D := D))).Keeps Adds fun s => s.Grown ∧ s.Fresh := by
    rintro s l s' ⟨grown, fresh⟩ adds ⟨⟩
    exact ⟨grown.step adds, (fresh_step_iff fresh l).mpr (grown.covered l)⟩
  exact (keeps.run ⟨grown, nofun⟩ adds (Machine.run_ofFold labels)).2

end DataLoader

end Tickscope.Backtest
