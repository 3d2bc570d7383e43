import Mathlib.Algebra.Order.BigOperators.Group.List
import Mathlib.Algebra.Order.Group.Nat
import Tickscope.Gateway.MergePositions
import Tickscope.Lib.FileReplace

/-!
# Rewriting the metadata when calls fail

`merge_and_write_metadata_csv` and `prune_metadata_csv` with the outcome of every `fopen`,
`fprintf`, `fclose` and `rename`. Only the outcome of the rename is looked at, and a file that
cannot be opened for reading counts as missing: `rewrite_allOrNothing_iff` says for which outcomes
the file is afterwards what it was or the whole new table. With calls that succeed the two are the
operations of `Tickscope.Gateway.MarketDiscovery` (`Disk.path_merge`, `Disk.path_prune`).
-/

namespace Tickscope.Gateway

open Tickscope.Lib

namespace Disk

/-- The outcomes of the calls of one rewrite. -/
structure Calls where
  /-- `fopen(path, "r")`, which fails anyway without a file -/
  readOpened : Bool
  replace : ReplaceCalls

/-- The texts that `write_metadata_csv` prints. -/
def csvTexts (rows : List TokenMeta) : List Str := (csvHeader ++ [10]) :: rows.map csvRow

def readCsvTokens (files : FilePair) (calls : Calls) : List TokenMeta :=
  Gateway.readCsvTokens (if calls.readOpened then files.path else none)

def mergeAndWriteMetadataCsv (files : FilePair) (calls : Calls) (fresh : List TokenMeta) :
    FilePair :=
  files.replace calls.replace (csvTexts (mergeRows (readCsvTokens files calls) fresh))

/-- `prune_metadata_csv` with the number of dropped rows that it returns. -/
def pruneMetadataCsv (files : FilePair) (calls : Calls) (cutoff : Str) : FilePair × Nat :=
  let rows := readCsvTokens files calls
  if rows = [] then (files, 0)
  else
    let kept := rows.filter (keptFrom cutoff)
    let dropped := rows.length - kept.length
    if dropped = 0 then (files, 0)
    else
      let written := files.write calls.replace (csvTexts kept)
      (written.rename calls.replace.renamed,
        if calls.replace.renamed = true ∧ written.tmp.isSome then dropped else 0)

/-! ## All or nothing -/

/-- The file is what it was, or all of the new table. -/
def AllOrNothing (before after : FilePair) (table : List TokenMeta) : Prop :=
  after.path = before.path ∨ after.path = some (encodeCsv table)

instance (before after : FilePair) (table : List TokenMeta) :
    Decidable (AllOrNothing before after table) :=
  inferInstanceAs (Decidable (_ ∨ _))

/-- The rename fails, or what it moves is right: the complete new table, when its rows are those
of the merge; by chance the old content, out of short writes; or a temporary file that an earlier
call has left, when none could be opened. -/
def WriteSafe (files : FilePair) (calls : Calls) (rows : List TokenMeta) (right : Prop)
    (table : List TokenMeta) : Prop :=
  calls.replace.renamed = false ∨
    if calls.replace.opened then
      calls.replace.Complete (csvTexts rows) ∧ right ∨
        some (calls.replace.written (csvTexts rows)) = files.path
    else files.tmp = none ∨ files.tmp = files.path ∨ files.tmp = some (encodeCsv table)

/-- The old rows could be read, or they make no difference to what is written. -/
def RowsRead (files : FilePair) (calls : Calls) (fresh : List TokenMeta) : Prop :=
  calls.readOpened = true ∨
    encodeCsv (mergeRows [] fresh) =
      encodeCsv (mergeRows (Gateway.readCsvTokens files.path) fresh)

def MergeSafe (files : FilePair) (calls : Calls) (fresh : List TokenMeta) : Prop :=
  WriteSafe files calls (mergeRows (readCsvTokens files calls) fresh)
    (RowsRead files calls fresh) (mergeRows (Gateway.readCsvTokens files.path) fresh)

/-- Without old rows, or without a row to drop, nothing is written. -/
def PruneSafe (files : FilePair) (calls : Calls) (cutoff : Str) : Prop :=
  calls.readOpened = false ∨
    (∀ m ∈ Gateway.readCsvTokens files.path, keptFrom cutoff m = true) ∨
      WriteSafe files calls ((Gateway.readCsvTokens files.path).filter (keptFrom cutoff)) True
        ((Gateway.readCsvTokens files.path).filter (keptFrom cutoff))

/-! ## Texts and lengths -/

theorem flatten_csvTexts (rows : List TokenMeta) : (csvTexts rows).flatten = encodeCsv rows := by
  rw [csvTexts, List.flatten_cons, encodeCsv, List.append_assoc, List.singleton_append,
    List.flatMap_def]

theorem length_encodeCsv (rows : List TokenMeta) :
    (encodeCsv rows).length = csvHeader.length + 1 + (rows.map fun m => (csvRow m).length).sum := by
  rw [encodeCsv, List.length_append, List.length_cons, List.length_flatMap]
  omega

/-- A merge with fewer old rows writes no more. -/
theorem length_mergeRows_nil_le (existing fresh : List TokenMeta) :
    (encodeCsv (mergeRows [] fresh)).length ≤ (encodeCsv (mergeRows existing fresh)).length := by
  have empty : (tokens []).Nodup := List.nodup_nil
  have law := mergeLaw empty fresh
  -- every row of the fresh table is in the merged one
  have subset : mergeRows [] fresh ⊆ mergeRows existing fresh := by
    intro m mem
    have seen : m.tokenId ∈ tokens fresh :=
      ((law.keys m.tokenId).mp (List.mem_map_of_mem mem)).resolve_left List.not_mem_nil
    have last : lastRow fresh m.tokenId = some m := by
      rw [← law.upserted m.tokenId seen]
      exact rowOf_of_mem law.distinct mem
    exact lastRow_mem_mergeRows last existing
  have nodup : (mergeRows [] fresh).Nodup := List.Nodup.of_map _ law.distinct
  obtain ⟨rows, perm, sub⟩ := List.subperm_of_subset nodup subset
  have sum := (perm.map fun m => (csvRow m).length).sum_nat
  have le := (sub.map fun m => (csvRow m).length).sum_le_sum fun _ _ => Nat.zero_le _
  rw [length_encodeCsv, length_encodeCsv]
  omega

/-! ## The rewrites -/

theorem replace_allOrNothing_iff (files : FilePair) (calls : Calls) {rows table : List TokenMeta}
    (le : (encodeCsv rows).length ≤ (encodeCsv table).length) :
    AllOrNothing files (files.replace calls.replace (csvTexts rows)) table ↔
      WriteSafe files calls rows (encodeCsv rows = encodeCsv table) table := by
  rw [← flatten_csvTexts rows] at le
  rw [AllOrNothing, FilePair.replace_path_iff files calls.replace le, FilePair.Safe, WriteSafe,
    flatten_csvTexts]

theorem merge_allOrNothing_iff (files : FilePair) (calls : Calls) (fresh : List TokenMeta) :
    AllOrNothing files (mergeAndWriteMetadataCsv files calls fresh)
        (mergeRows (Gateway.readCsvTokens files.path) fresh) ↔ MergeSafe files calls fresh := by
  have le : (encodeCsv (mergeRows (readCsvTokens files calls) fresh)).length ≤
      (encodeCsv (mergeRows (Gateway.readCsvTokens files.path) fresh)).length := by
    unfold readCsvTokens
    cases calls.readOpened with
    | true => exact Nat.le_refl _
    | false => exact length_mergeRows_nil_le _ fresh
  have right : encodeCsv (mergeRows (readCsvTokens files calls) fresh) =
      encodeCsv (mergeRows (Gateway.readCsvTokens files.path) fresh) ↔
        RowsRead files calls fresh := by
    unfold RowsRead readCsvTokens
    cases calls.readOpened with
    | true => simp
    | false => simp [Gateway.readCsvTokens]
  rw [mergeAndWriteMetadataCsv, replace_allOrNothing_iff files calls le, MergeSafe, WriteSafe,
    WriteSafe, right]

theorem prune_allOrNothing_iff (files : FilePair) (calls : Calls) (cutoff : Str) :
    AllOrNothing files (pruneMetadataCsv files calls cutoff).1
        ((Gateway.readCsvTokens files.path).filter (keptFrom cutoff)) ↔
      PruneSafe files calls cutoff := by
  unfold pruneMetadataCsv PruneSafe readCsvTokens
  cases calls.readOpened with
  | false => exact iff_of_true (.inl rfl) (.inl rfl)
  | true =>
      dsimp only
      rw [if_pos rfl]
      split
      · rename_i none
        exact iff_of_true (.inl rfl) (.inr (.inl (by rw [none]; exact nofun)))
      · split
        · rename_i same
          refine iff_of_true (.inl rfl) (.inr (.inl ?_))
          have le := List.length_filter_le (keptFrom cutoff) (Gateway.readCsvTokens files.path)
          exact List.length_filter_eq_length_iff.mp (by omega)
        · rename_i fewer
          have drops : ¬ ∀ m ∈ Gateway.readCsvTokens files.path, keptFrom cutoff m = true := by
            intro all
            rw [List.length_filter_eq_length_iff.mpr all, Nat.sub_self] at fewer
            exact fewer rfl
          have rewritten := replace_allOrNothing_iff files calls
            (Nat.le_refl (encodeCsv ((Gateway.readCsvTokens files.path).filter
              (keptFrom cutoff))).length)
          simp only [FilePair.replace] at rewritten
          simp only [rewritten, drops, WriteSafe, false_or, Bool.true_eq_false]

/-- With calls that succeed, a merge is that of the module on the table. -/
theorem path_merge {files : FilePair} {calls : Calls} {fresh : List TokenMeta}
    (read : calls.readOpened = true) (opened : calls.replace.opened = true)
    (complete : calls.replace.Complete (csvTexts (mergeRows (Gateway.readCsvTokens files.path)
      fresh))) (renamed : calls.replace.renamed = true) :
    (mergeAndWriteMetadataCsv files calls fresh).path =
      some (Gateway.mergeAndWriteMetadataCsv files.path fresh) := by
  rw [mergeAndWriteMetadataCsv, readCsvTokens, if_pos read, FilePair.replace, FilePair.path_rename,
    if_pos renamed, FilePair.tmp_write, if_pos opened, ReplaceCalls.written_of_complete complete,
    flatten_csvTexts]
  rfl

/-- With calls that succeed, a prune is that of the module on the table. -/
theorem path_prune {files : FilePair} {calls : Calls} {cutoff : Str}
    (read : calls.readOpened = true) (opened : calls.replace.opened = true)
    (complete : calls.replace.Complete (csvTexts ((Gateway.readCsvTokens files.path).filter
      (keptFrom cutoff)))) (renamed : calls.replace.renamed = true) :
    (pruneMetadataCsv files calls cutoff).1.path =
      Gateway.pruneMetadataCsv files.path cutoff := by
  unfold pruneMetadataCsv Gateway.pruneMetadataCsv readCsvTokens
  dsimp only
  rw [if_pos read]
  have le := List.length_filter_le (keptFrom cutoff) (Gateway.readCsvTokens files.path)
  by_cases none : Gateway.readCsvTokens files.path = []
  · rw [if_pos none, none]
    rfl
  · rw [if_neg none]
    by_cases same : ((Gateway.readCsvTokens files.path).filter (keptFrom cutoff)).length =
        (Gateway.readCsvTokens files.path).length
    · rw [if_pos (by omega), if_pos same]
    · rw [if_neg (by omega), if_neg same]
      dsimp only
      rw [FilePair.path_rename, if_pos renamed, FilePair.tmp_write, if_pos opened,
        ReplaceCalls.written_of_complete complete, flatten_csvTexts]
      rfl

end Disk

/-- **All or nothing.** After a merge or a prune the file is what it was or the whole new table
exactly for these outcomes. -/
theorem rewrite_allOrNothing_iff (files : FilePair) (calls : Disk.Calls) :
    (∀ fresh, Disk.AllOrNothing files (Disk.mergeAndWriteMetadataCsv files calls fresh)
        (mergeRows (readCsvTokens files.path) fresh) ↔ Disk.MergeSafe files calls fresh) ∧
      ∀ cutoff, Disk.AllOrNothing files (Disk.pruneMetadataCsv files calls cutoff).1
          ((readCsvTokens files.path).filter (keptFrom cutoff)) ↔
        Disk.PruneSafe files calls cutoff :=
  ⟨Disk.merge_allOrNothing_iff files calls, Disk.prune_allOrNothing_iff files calls⟩

/-- The row of the one market is lost: in a short write of it by the merge or the prune, or when
the old file could not be opened. -/
theorem rewrite_loses_rows :
    let one : TokenMeta := ⟨ascii "1", ascii "a", ascii "YES", [], [], true, 0⟩
    let two : TokenMeta := ⟨ascii "2", ascii "b", ascii "YES", [], ascii "2025-01-01", true, 0⟩
    let full : Disk.Calls := ⟨true, true, fun _ => 4096, 4096, true⟩
    let short : Disk.Calls := ⟨true, true, fun i => if i = 1 then 5 else 4096, 4096, true⟩
    let unread : Disk.Calls := { full with readOpened := false }
    let files : FilePair := ⟨some (encodeCsv [one, two]), none⟩
    ¬ Disk.AllOrNothing files (Disk.mergeAndWriteMetadataCsv files short [])
        (mergeRows (readCsvTokens files.path) []) ∧
      ¬ Disk.AllOrNothing files (Disk.mergeAndWriteMetadataCsv files unread [])
        (mergeRows (readCsvTokens files.path) []) ∧
      ¬ Disk.AllOrNothing files (Disk.pruneMetadataCsv files short (ascii "2026-01-01")).1
        ((readCsvTokens files.path).filter (keptFrom (ascii "2026-01-01"))) := by
  decide +kernel

end Tickscope.Gateway
