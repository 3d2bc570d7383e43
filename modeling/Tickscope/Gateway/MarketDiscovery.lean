import Mathlib.Data.List.AList
import Tickscope.Gateway.MetadataCsv

/-!
# The metadata table

The operations of `src/gateway/MarketDiscovery.cpp` on the metadata CSV, as functions from the
file's content to its content, with every call of the file system succeeding, and
`filter_by_question`. `CsvOk` says of a content that it is what `write_metadata_csv` writes; each
operation keeps it, and the tokens that have a row afterwards are given in terms of those before.
-/

namespace Tickscope.Gateway

open Tickscope.Lib

/-! ## Merging -/

/-- `existing_index`: where a token's row is. -/
abbrev Index := AList fun _ : Str => Nat

/-- The loop that builds `existing_index`, from position `i` on. -/
def indexFrom (i : Nat) (index : Index) : List TokenMeta → Index
  | [] => index
  | m :: rows => indexFrom (i + 1) (index.insert m.tokenId i) rows

/-- A fresh row takes the place of the token's row, or comes last. -/
def upsert (table : List TokenMeta × Index) (m : TokenMeta) : List TokenMeta × Index :=
  match table.2.lookup m.tokenId with
  | some i => (table.1.set i m, table.2)
  | none => (table.1 ++ [m], table.2.insert m.tokenId table.1.length)

/-- A row whose token is not fresh is marked as delisted. -/
def delist (fresh : List TokenMeta) (m : TokenMeta) : TokenMeta :=
  if fresh.any fun f => f.tokenId = m.tokenId then m else { m with active := false }

/-- The table that `merge_and_write_metadata_csv` writes. -/
def mergeRows (existing fresh : List TokenMeta) : List TokenMeta :=
  (fresh.foldl upsert (existing, indexFrom 0 ∅ existing)).1.map (delist fresh)

def mergeAndWriteMetadataCsv (csv : Option Str) (fresh : List TokenMeta) : Str :=
  encodeCsv (mergeRows (readCsvTokens csv) fresh)

/-! ## Appending -/

/-- The rows of the tokens that are not known, and the known tokens afterwards. -/
def newRows (known : List Str) : List TokenMeta → List TokenMeta × List Str
  | [] => ([], known)
  | m :: fresh =>
      if m.tokenId ∈ known then newRows known fresh
      else
        let rest := newRows (m.tokenId :: known) fresh
        (m :: rest.1, rest.2)

/-- `append_new_metadata_csv`; a missing or empty file gets its header first. -/
def appendNewMetadataCsv (csv : Option Str) (known : List Str) (fresh : List TokenMeta) :
    Str × List Str :=
  let new := newRows known fresh
  let text := csv.getD []
  ((if text = [] then csvHeader ++ [10] else text) ++ new.1.flatMap csvRow, new.2)

/-! ## Pruning -/

/-- The market has no end date or ends on or after the cutoff. -/
def keptFrom (cutoff : Str) (m : TokenMeta) : Bool :=
  m.endDate = [] ∨ ¬ m.endDate < cutoff

/-- `prune_metadata_csv`; the file is rewritten when a row is dropped. -/
def pruneMetadataCsv (csv : Option Str) (cutoff : Str) : Option Str :=
  let rows := readCsvTokens csv
  let kept := rows.filter (keptFrom cutoff)
  if kept.length = rows.length then csv else some (encodeCsv kept)

/-! ## Filtering -/

/-- The part between two commas, in lower case and without spaces around it. -/
def filterTerm (part : Str) : Option Str :=
  let term := ((toLower part).dropWhile (· = 32)).rdropWhile (· = 32)
  if term = [] then none else some term

def filterTerms (filterCsv : Str) : List Str := (filterCsv.splitOn 44).filterMap filterTerm

def filterByQuestion (tokens : List TokenMeta) (filterCsv : Str) : List TokenMeta :=
  let terms := filterTerms filterCsv
  if terms = [] then tokens
  else tokens.filter fun m => terms.any (occursIn · (toLower m.question))

theorem filterByQuestion_subset (tokens : List TokenMeta) (filterCsv : Str) :
    filterByQuestion tokens filterCsv ⊆ tokens := by
  unfold filterByQuestion
  dsimp only
  split
  · exact List.Subset.refl tokens
  · exact List.filter_subset_self tokens

/-! ## Tables -/

/-- The tokens of some rows. -/
def tokens (rows : List TokenMeta) : List Str := rows.map TokenMeta.tokenId

/-- The token has a row in the file. -/
def HasRow (csv : Option Str) (token : Str) : Prop := token ∈ tokens (readCsvTokens csv)

/-- The content is what `write_metadata_csv` writes for the rows that are read from it. -/
structure CsvOk (csv : Option Str) : Prop where
  text : csv = some (encodeCsv (readCsvTokens csv))
  rows : ∀ m ∈ readCsvTokens csv, RowOk m

theorem encodeCsv_stored (rows : List TokenMeta) :
    encodeCsv (rows.map TokenMeta.stored) = encodeCsv rows := by
  have row : ∀ m, csvRow (TokenMeta.stored m) = csvRow m := fun m => by
    rw [csvRow, csvRow, csvLine_stored]
  unfold encodeCsv
  rw [List.flatMap_map]
  simp only [row]

theorem tokens_stored (rows : List TokenMeta) :
    tokens (rows.map TokenMeta.stored) = tokens rows :=
  List.map_map

theorem csvOk_encode {rows : List TokenMeta} (ok : ∀ m ∈ rows, RowOk m) :
    CsvOk (some (encodeCsv rows)) where
  text := by rw [readCsvTokens_encode ok, encodeCsv_stored]
  rows := by
    rw [readCsvTokens_encode ok]
    intro m mem
    obtain ⟨m', mem', rfl⟩ := List.mem_map.mp mem
    exact (ok m' mem').stored

theorem hasRow_encode {rows : List TokenMeta} (ok : ∀ m ∈ rows, RowOk m) (token : Str) :
    HasRow (some (encodeCsv rows)) token ↔ token ∈ tokens rows := by
  rw [HasRow, readCsvTokens_encode ok, tokens_stored]

/-! ## What a merge leaves -/

/-- The index points at rows of the token. -/
def Indexed (table : List TokenMeta × Index) : Prop :=
  ∀ token i, table.2.lookup token = some i → (tokens table.1)[i]? = some token

theorem indexed_indexFrom {before rows : List TokenMeta} {index : Index}
    (indexed : Indexed (before ++ rows, index)) :
    Indexed (before ++ rows, indexFrom before.length index rows) := by
  induction rows generalizing before index with
  | nil => exact indexed
  | cons m rows ih =>
      have next : Indexed ((before ++ [m]) ++ rows, index.insert m.tokenId before.length) := by
        intro token i found
        rw [List.append_assoc, List.singleton_append]
        by_cases same : token = m.tokenId
        · rw [same, AList.lookup_insert] at found
          cases found
          simp [tokens, same]
        · rw [AList.lookup_insert_ne same] at found
          exact indexed token i found
      have done := ih next
      rw [List.append_assoc, List.singleton_append, List.length_append] at done
      exact done

/-- An upsert keeps all tokens and adds its own. -/
theorem tokens_upsert {table : List TokenMeta × Index} (indexed : Indexed table) (m : TokenMeta) :
    tokens table.1 ⊆ tokens (upsert table m).1 ∧ m.tokenId ∈ tokens (upsert table m).1 ∧
      Indexed (upsert table m) := by
  unfold upsert
  split
  · rename_i i found
    have here := indexed m.tokenId i found
    have same : tokens (table.1.set i m) = tokens table.1 := by
      rcases List.getElem?_eq_some_iff.mp here with ⟨lt, eq⟩
      unfold tokens at lt eq ⊢
      rw [List.map_set, ← eq, List.set_getElem_self]
    refine ⟨?_, ?_, ?_⟩
    · rw [same]
      exact List.Subset.refl _
    · rw [same]
      exact List.mem_of_getElem? here
    · unfold Indexed
      rw [same]
      exact indexed
  · have eq : tokens (table.1 ++ [m]) = tokens table.1 ++ [m.tokenId] := List.map_append
    refine ⟨?_, ?_, ?_⟩
    · rw [eq]
      exact List.subset_append_left _ _
    · rw [eq]
      exact List.mem_append_right _ (List.mem_singleton_self _)
    · intro token i found
      rw [eq]
      by_cases same : token = m.tokenId
      · rw [same, AList.lookup_insert] at found
        cases found
        have length : (tokens table.1).length = table.1.length := List.length_map _
        rw [← length, List.getElem?_concat_length, same]
      · rw [AList.lookup_insert_ne same] at found
        have here := indexed token i found
        rw [List.getElem?_append_left (List.getElem?_eq_some_iff.mp here).1]
        exact here

theorem mem_upsert {table : List TokenMeta × Index} {m row : TokenMeta}
    (mem : row ∈ (upsert table m).1) : row ∈ table.1 ∨ row = m := by
  unfold upsert at mem
  split at mem
  · exact List.mem_or_eq_of_mem_set mem
  · exact (List.mem_append.mp mem).imp_right List.mem_singleton.mp

theorem tokens_foldl_upsert {table : List TokenMeta × Index} (indexed : Indexed table)
    (fresh : List TokenMeta) :
    tokens table.1 ⊆ tokens (fresh.foldl upsert table).1 ∧
      tokens fresh ⊆ tokens (fresh.foldl upsert table).1 := by
  induction fresh generalizing table with
  | nil => exact ⟨List.Subset.refl _, List.nil_subset _⟩
  | cons m fresh ih =>
      rcases tokens_upsert indexed m with ⟨kept, added, indexed'⟩
      rcases ih indexed' with ⟨kept', added'⟩
      exact ⟨List.Subset.trans kept kept', List.cons_subset.mpr ⟨kept' added, added'⟩⟩

theorem mem_foldl_upsert {table : List TokenMeta × Index} {fresh : List TokenMeta}
    {row : TokenMeta} (mem : row ∈ (fresh.foldl upsert table).1) :
    row ∈ table.1 ∨ row ∈ fresh := by
  induction fresh generalizing table with
  | nil => exact .inl mem
  | cons m fresh ih =>
      rcases ih mem with mem | mem
      · rcases mem_upsert mem with mem | rfl
        · exact .inl mem
        · exact .inr List.mem_cons_self
      · exact .inr (List.mem_cons_of_mem m mem)

theorem tokens_mergeRows (existing fresh : List TokenMeta) :
    tokens existing ⊆ tokens (mergeRows existing fresh) ∧
      tokens fresh ⊆ tokens (mergeRows existing fresh) := by
  have delisted : ∀ rows, tokens (rows.map (delist fresh)) = tokens rows := by
    intro rows
    unfold tokens
    rw [List.map_map]
    refine List.map_congr_left fun m _ => ?_
    rw [Function.comp_apply, delist]
    split <;> rfl
  rw [mergeRows, delisted]
  have empty : Indexed ([] ++ existing, ∅) := fun token i found => by
    rw [AList.lookup_empty] at found
    cases found
  exact tokens_foldl_upsert (indexed_indexFrom empty) fresh

theorem rowOk_mergeRows {existing fresh : List TokenMeta} (old : ∀ m ∈ existing, RowOk m)
    (new : ∀ m ∈ fresh, RowOk m) : ∀ m ∈ mergeRows existing fresh, RowOk m := by
  intro row mem
  obtain ⟨m, mem', rfl⟩ := List.mem_map.mp mem
  have ok : RowOk m := (mem_foldl_upsert mem').elim (old m) (new m)
  rw [delist]
  split
  · exact ok
  · exact ok.delisted

/-- **The merge.** No token loses its row, and every fresh token has one. -/
theorem mergeAndWrite_spec {csv : Option Str} {fresh : List TokenMeta}
    (old : csv = none ∨ CsvOk csv) (new : ∀ m ∈ fresh, RowOk m) :
    CsvOk (some (mergeAndWriteMetadataCsv csv fresh)) ∧
      (∀ token, HasRow csv token → HasRow (some (mergeAndWriteMetadataCsv csv fresh)) token) ∧
      ∀ token ∈ tokens fresh, HasRow (some (mergeAndWriteMetadataCsv csv fresh)) token := by
  have existing : ∀ m ∈ readCsvTokens csv, RowOk m := by
    rcases old with rfl | ok
    · exact nofun
    · exact ok.rows
  have ok := rowOk_mergeRows existing new
  rcases tokens_mergeRows (readCsvTokens csv) fresh with ⟨kept, added⟩
  exact ⟨csvOk_encode ok, fun token has => (hasRow_encode ok token).mpr (kept has),
    fun token mem => (hasRow_encode ok token).mpr (added mem)⟩

/-! ## What an append leaves -/

theorem newRows_subset (known : List Str) (fresh : List TokenMeta) :
    (newRows known fresh).1 ⊆ fresh := by
  induction fresh generalizing known with
  | nil => exact List.Subset.refl []
  | cons m fresh ih =>
      rw [newRows]
      split
      · exact List.subset_cons_of_subset m (ih known)
      · exact List.cons_subset_cons m (ih _)

/-- The known tokens grow by those of the new rows, and no fresh token is left out. -/
theorem mem_known_newRows (known : List Str) (fresh : List TokenMeta) (token : Str) :
    token ∈ (newRows known fresh).2 ↔ token ∈ known ∨ token ∈ tokens (newRows known fresh).1 := by
  induction fresh generalizing known with
  | nil => exact (or_iff_left List.not_mem_nil).symm
  | cons m fresh ih =>
      rw [newRows]
      split
      · exact ih known
      · rw [ih (m.tokenId :: known), tokens, tokens, List.map_cons, List.mem_cons, List.mem_cons]
        exact or_left_comm.symm.trans or_assoc.symm |>.symm

theorem tokens_subset_known (known : List Str) (fresh : List TokenMeta) :
    known ⊆ (newRows known fresh).2 ∧ tokens fresh ⊆ (newRows known fresh).2 := by
  induction fresh generalizing known with
  | nil => exact ⟨List.Subset.refl known, List.nil_subset _⟩
  | cons m fresh ih =>
      rw [newRows]
      split
      · rename_i seen
        rcases ih known with ⟨kept, added⟩
        exact ⟨kept, List.cons_subset.mpr ⟨kept seen, added⟩⟩
      · rcases ih (m.tokenId :: known) with ⟨kept, added⟩
        rcases List.cons_subset.mp kept with ⟨here, kept⟩
        exact ⟨kept, List.cons_subset.mpr ⟨here, added⟩⟩

theorem append_encodeCsv (rows new : List TokenMeta) :
    encodeCsv rows ++ new.flatMap csvRow = encodeCsv (rows ++ new) := by
  rw [encodeCsv, encodeCsv, List.flatMap_append, List.append_assoc, List.cons_append]

/-- The new rows have tokens that are not known, each once. -/
theorem nodup_newRows (known : List Str) (fresh : List TokenMeta) :
    (tokens (newRows known fresh).1).Nodup ∧ ∀ token ∈ tokens (newRows known fresh).1,
      token ∉ known := by
  induction fresh generalizing known with
  | nil => exact ⟨List.nodup_nil, nofun⟩
  | cons m fresh ih =>
      rw [newRows]
      split
      · exact ih known
      · rename_i unseen
        rcases ih (m.tokenId :: known) with ⟨nodup, unknown⟩
        refine ⟨List.nodup_cons.mpr ⟨fun mem => unknown _ mem List.mem_cons_self, nodup⟩, ?_⟩
        intro token mem
        rcases List.mem_cons.mp mem with rfl | mem
        · exact unseen
        · exact fun old => unknown token mem (List.mem_cons_of_mem _ old)

/-- An append writes the table with the new rows at its end. -/
theorem appendNew_encode {csv : Option Str} (ok : CsvOk csv) (known : List Str)
    (fresh : List TokenMeta) :
    (appendNewMetadataCsv csv known fresh).1 =
      encodeCsv (readCsvTokens csv ++ (newRows known fresh).1) := by
  have text : csv.getD [] = encodeCsv (readCsvTokens csv) := by
    conv => lhs; rw [ok.text]
    rfl
  have nonempty : encodeCsv (readCsvTokens csv) ≠ [] :=
    List.append_ne_nil_of_right_ne_nil _ (List.cons_ne_nil _ _)
  rw [← append_encodeCsv, appendNewMetadataCsv]
  dsimp only
  rw [text, if_neg nonempty]

/-- **The append.** A token that is known afterwards was known before or has a row. -/
theorem appendNew_spec {csv : Option Str} (ok : CsvOk csv) (known : List Str)
    {fresh : List TokenMeta} (new : ∀ m ∈ fresh, RowOk m) :
    CsvOk (some (appendNewMetadataCsv csv known fresh).1) ∧
      (∀ token, HasRow csv token → HasRow (some (appendNewMetadataCsv csv known fresh).1) token) ∧
      ∀ token ∈ (appendNewMetadataCsv csv known fresh).2,
        token ∈ known ∨ HasRow (some (appendNewMetadataCsv csv known fresh).1) token := by
  have written := appendNew_encode ok known fresh
  have rows : ∀ m ∈ readCsvTokens csv ++ (newRows known fresh).1, RowOk m := fun m mem =>
    (List.mem_append.mp mem).elim (ok.rows m) fun mem => new m (newRows_subset known fresh mem)
  have has : ∀ token, HasRow (some (appendNewMetadataCsv csv known fresh).1) token ↔
      token ∈ tokens (readCsvTokens csv) ∨ token ∈ tokens (newRows known fresh).1 := fun token => by
    rw [written, hasRow_encode rows, tokens, List.map_append, List.mem_append]
    rfl
  refine ⟨written ▸ csvOk_encode rows, fun token old => (has token).mpr (.inl old),
    fun token mem => ?_⟩
  exact ((mem_known_newRows known fresh token).mp mem).imp_right fun mem =>
    (has token).mpr (.inr mem)

/-! ## What a prune leaves -/

/-- **The prune.** A token that loses its row has one from before the cutoff. -/
theorem prune_spec {csv : Option Str} (ok : CsvOk csv) (cutoff : Str) :
    CsvOk (pruneMetadataCsv csv cutoff) ∧
      ∀ token, HasRow csv token → HasRow (pruneMetadataCsv csv cutoff) token ∨
        ∃ m ∈ readCsvTokens csv, m.tokenId = token ∧ keptFrom cutoff m = false := by
  unfold pruneMetadataCsv
  dsimp only
  split
  · exact ⟨ok, fun token has => .inl has⟩
  · have rows : ∀ m ∈ (readCsvTokens csv).filter (keptFrom cutoff), RowOk m := fun m mem =>
      ok.rows m (List.mem_filter.mp mem).1
    refine ⟨csvOk_encode rows, fun token has => ?_⟩
    obtain ⟨m, mem, rfl⟩ := List.mem_map.mp has
    cases kept : keptFrom cutoff m with
    | true =>
        refine .inl ((hasRow_encode rows _).mpr (List.mem_map.mpr ⟨m, ?_, rfl⟩))
        exact List.mem_filter.mpr ⟨mem, kept⟩
    | false => exact .inr ⟨m, mem, rfl, kept⟩

end Tickscope.Gateway
