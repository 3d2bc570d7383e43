import Tickscope.Gateway.MergeLaw

/-!
# The merge, row by row

What `merge_and_write_metadata_csv` makes of any table, also of one in which a token has several
rows: the index knows the last of them only. `Upserted` is the invariant of the loop over the
fresh rows, `getElem?_mergeRows` says what becomes of the row at a position, and
`lastRow_mem_mergeRows` that the last fresh row of a token is in the new table.
-/

namespace Tickscope.Gateway

open Tickscope.Lib

/-- The table and its index after the rows `fresh`. -/
structure Upserted (existing fresh : List TokenMeta) (table : List TokenMeta × Index) : Prop where
  order : tokens table.1 = tokens existing ++ newTokens existing fresh
  index : ∀ token i, table.2.lookup token = some i ↔ LastAt (tokens table.1) token i
  rows : ∀ i m, existing[i]? = some m → table.1[i]? =
    if m.tokenId ∈ tokens fresh ∧ LastAt (tokens existing) m.tokenId i then
      lastRow fresh m.tokenId
    else some m
  fresh : ∀ token f, lastRow fresh token = some f →
    ∃ i, LastAt (tokens table.1) token i ∧ table.1[i]? = some f

theorem lookup_indexFrom {before : List TokenMeta} {index : Index}
    (known : ∀ token i, index.lookup token = some i ↔ LastAt (tokens before) token i)
    (rows : List TokenMeta) (token : Str) (i : Nat) :
    (indexFrom before.length index rows).lookup token = some i ↔
      LastAt (tokens (before ++ rows)) token i := by
  induction rows generalizing before index with
  | nil => rw [List.append_nil]; exact known token i
  | cons m rows ih =>
      have length : (tokens before).length = before.length := List.length_map _
      have next : ∀ token i, (index.insert m.tokenId before.length).lookup token = some i ↔
          LastAt (tokens (before ++ [m])) token i := by
        intro token i
        rw [tokens_concat, lastAt_concat, length]
        by_cases same : m.tokenId = token
        · rw [if_pos same, ← same, AList.lookup_insert, Option.some_inj, eq_comm]
        · rw [if_neg same, AList.lookup_insert_ne (Ne.symm same), known]
      have done := ih next
      rw [List.append_assoc, List.singleton_append, List.length_append] at done
      exact done

theorem upserted_indexFrom (existing : List TokenMeta) :
    Upserted existing [] (existing, indexFrom 0 ∅ existing) where
  order := (List.append_nil _).symm
  index := by
    have empty : ∀ token i, (∅ : Index).lookup token = some i ↔ LastAt (tokens []) token i := by
      intro token i
      rw [AList.lookup_empty]
      exact iff_of_false nofun fun last => nomatch last.1
    exact lookup_indexFrom empty existing
  rows := fun i m found => by simp [tokens, found]
  fresh := nofun

/-- A token of the old table has its last row among the old rows. -/
theorem Upserted.lastAt {existing fresh : List TokenMeta} {table : List TokenMeta × Index}
    (upserted : Upserted existing fresh table) {token : Str} (old : token ∈ tokens existing)
    (i : Nat) : LastAt (tokens table.1) token i ↔ LastAt (tokens existing) token i := by
  rw [upserted.order]
  refine lastAt_append (fun mem => ?_) i
  exact of_decide_eq_true (List.mem_filter.mp mem).2 old

section FreshRow

variable {existing fresh : List TokenMeta} {table : List TokenMeta × Index}

theorem Upserted.tokenAt (upserted : Upserted existing fresh table) {i : Nat} {m : TokenMeta}
    (old : existing[i]? = some m) : (tokens table.1)[i]? = some m.tokenId := by
  have lt : i < (tokens existing).length := by
    rw [tokens, List.length_map]
    exact (List.getElem?_eq_some_iff.mp old).1
  rw [upserted.order, List.getElem?_append_left lt, tokens, List.getElem?_map, old]
  rfl

theorem Upserted.unknown (upserted : Upserted existing fresh table) {token : Str}
    (missing : table.2.lookup token = none) : token ∉ tokens table.1 := by
  intro mem
  obtain ⟨i, last⟩ := exists_lastAt mem
  have known := (upserted.index token i).mpr last
  rw [missing] at known
  cases known

theorem bound_of_lastAt {rows : List TokenMeta} {token : Str} {i : Nat}
    (last : LastAt (tokens rows) token i) : i < rows.length := by
  rw [← List.length_map TokenMeta.tokenId]
  exact last.lt

/-- The rows of the fresh row's token: the last one is replaced. The others stay. -/
theorem Upserted.rows_set (upserted : Upserted existing fresh table) {m : TokenMeta} {i : Nat}
    (here : LastAt (tokens table.1) m.tokenId i) {j : Nat} {row : TokenMeta}
    (old : existing[j]? = some row) :
    (table.1.set i m)[j]? =
      if row.tokenId ∈ tokens (fresh ++ [m]) ∧ LastAt (tokens existing) row.tokenId j then
        lastRow (fresh ++ [m]) row.tokenId
      else some row := by
  simp only [tokens_concat, lastRow_concat, List.mem_append, List.mem_singleton]
  by_cases isToken : m.tokenId = row.tokenId
  · have lastOld := upserted.lastAt (List.mem_map_of_mem (List.mem_of_getElem? old))
    rw [← isToken] at lastOld ⊢
    rw [if_pos rfl]
    by_cases at_i : i = j
    · subst at_i
      rw [List.getElem?_set_self (bound_of_lastAt here), if_pos ⟨.inr rfl, (lastOld i).mp here⟩]
    · have notLast : ¬ LastAt (tokens existing) m.tokenId j := by
        intro lastJ
        have known := (upserted.index m.tokenId i).mpr here
        have again := (upserted.index m.tokenId j).mpr ((lastOld j).mpr lastJ)
        exact at_i (Option.some.inj (known.symm.trans again))
      rw [List.getElem?_set_ne at_i, upserted.rows j row old, ← isToken,
        if_neg fun both => notLast both.2, if_neg fun both => notLast both.2]
  · have at_i : i ≠ j := by
      intro same
      subst same
      exact isToken (Option.some.inj (here.1.symm.trans (upserted.tokenAt old)))
    simp only [List.getElem?_set_ne at_i, upserted.rows j row old, isToken,
      Ne.symm isToken, if_false, or_false]

theorem Upserted.fresh_set (upserted : Upserted existing fresh table) {m : TokenMeta} {i : Nat}
    (here : LastAt (tokens table.1) m.tokenId i) {token : Str} {f : TokenMeta}
    (row : lastRow (fresh ++ [m]) token = some f) :
    ∃ j, LastAt (tokens table.1) token j ∧ (table.1.set i m)[j]? = some f := by
  rw [lastRow_concat] at row
  by_cases isToken : m.tokenId = token
  · rw [if_pos isToken] at row
    cases row
    subst isToken
    exact ⟨i, here, List.getElem?_set_self (bound_of_lastAt here)⟩
  · rw [if_neg isToken] at row
    obtain ⟨j, lastJ, at_j⟩ := upserted.fresh token f row
    have ne : i ≠ j := by
      intro same
      subst same
      exact isToken (Option.some.inj (here.1.symm.trans lastJ.1))
    exact ⟨j, lastJ, (List.getElem?_set_ne ne).trans at_j⟩

/-- A fresh row whose token is known. -/
theorem Upserted.set (upserted : Upserted existing fresh table) {m : TokenMeta} {i : Nat}
    (found : table.2.lookup m.tokenId = some i) :
    Upserted existing (fresh ++ [m]) (table.1.set i m, table.2) := by
  have here := (upserted.index m.tokenId i).mp found
  have same : tokens (table.1.set i m) = tokens table.1 := keys_set here.1
  refine ⟨?_, ?_, fun j row old => upserted.rows_set here old, fun token f row => ?_⟩
  · rw [newTokens_concat, if_pos (upserted.order ▸ here.mem), same, upserted.order]
  · rw [same]
    exact upserted.index
  · rw [same]
    exact upserted.fresh_set here row

theorem Upserted.rows_concat (upserted : Upserted existing fresh table) {m : TokenMeta}
    (new : m.tokenId ∉ tokens table.1) {j : Nat} {row : TokenMeta}
    (old : existing[j]? = some row) :
    (table.1 ++ [m])[j]? =
      if row.tokenId ∈ tokens (fresh ++ [m]) ∧ LastAt (tokens existing) row.tokenId j then
        lastRow (fresh ++ [m]) row.tokenId
      else some row := by
  have at_j := upserted.tokenAt old
  have isToken : m.tokenId ≠ row.tokenId := fun same => new (same ▸ List.mem_of_getElem? at_j)
  have lt : j < table.1.length := by
    rw [← List.length_map TokenMeta.tokenId]
    exact (List.getElem?_eq_some_iff.mp at_j).1
  simp only [List.getElem?_append_left lt, upserted.rows j row old, tokens_concat,
    lastRow_concat, List.mem_append, List.mem_singleton, isToken, Ne.symm isToken, if_false,
    or_false]

theorem Upserted.fresh_concat (upserted : Upserted existing fresh table) {m : TokenMeta}
    {token : Str} {f : TokenMeta} (row : lastRow (fresh ++ [m]) token = some f) :
    ∃ j, LastAt (tokens (table.1 ++ [m])) token j ∧ (table.1 ++ [m])[j]? = some f := by
  rw [lastRow_concat] at row
  by_cases isToken : m.tokenId = token
  · rw [if_pos isToken] at row
    cases row
    refine ⟨table.1.length, ?_, List.getElem?_concat_length⟩
    rw [tokens_concat, lastAt_concat, if_pos isToken, tokens, List.length_map]
  · rw [if_neg isToken] at row
    obtain ⟨j, lastJ, at_j⟩ := upserted.fresh token f row
    refine ⟨j, ?_, ?_⟩
    · rw [tokens_concat, lastAt_concat, if_neg isToken]
      exact lastJ
    · rw [List.getElem?_append_left (bound_of_lastAt lastJ), at_j]

/-- A fresh row whose token is new. -/
theorem Upserted.concat (upserted : Upserted existing fresh table) {m : TokenMeta}
    (missing : table.2.lookup m.tokenId = none) :
    Upserted existing (fresh ++ [m])
      (table.1 ++ [m], table.2.insert m.tokenId table.1.length) := by
  have new := upserted.unknown missing
  refine ⟨?_, fun token i => ?_, fun j row old => upserted.rows_concat new old,
    fun token f row => upserted.fresh_concat row⟩
  · rw [newTokens_concat, if_neg (upserted.order ▸ new), tokens_concat, upserted.order,
      List.append_assoc]
  · rw [tokens_concat, lastAt_concat, tokens, List.length_map]
    by_cases isToken : m.tokenId = token
    · rw [if_pos isToken, ← isToken, AList.lookup_insert, Option.some_inj, eq_comm]
    · rw [if_neg isToken, AList.lookup_insert_ne (Ne.symm isToken), upserted.index]
      rfl

/-- **One fresh row.** -/
theorem upserted_upsert (upserted : Upserted existing fresh table) (m : TokenMeta) :
    Upserted existing (fresh ++ [m]) (upsert table m) := by
  unfold upsert
  cases found : table.2.lookup m.tokenId with
  | some i => exact upserted.set found
  | none => exact upserted.concat found

end FreshRow

theorem upserted_foldl (existing fresh : List TokenMeta) :
    Upserted existing fresh (fresh.foldl upsert (existing, indexFrom 0 ∅ existing)) := by
  induction fresh using List.reverseRecOn with
  | nil => exact upserted_indexFrom existing
  | append_singleton fresh m ih =>
      rw [List.foldl_concat]
      exact upserted_upsert ih m

/-! ## The whole merge -/

/-- **The row at a position.** It is delisted when its token is not fresh, and replaced by the
last fresh row when it is the last row of a fresh token. -/
theorem getElem?_mergeRows {existing : List TokenMeta} {i : Nat} {m : TokenMeta}
    (old : existing[i]? = some m) (fresh : List TokenMeta) :
    (mergeRows existing fresh)[i]? =
      if m.tokenId ∈ tokens fresh then
        if LastAt (tokens existing) m.tokenId i then lastRow fresh m.tokenId else some m
      else some { m with active := false } := by
  have rows := (upserted_foldl existing fresh).rows i m old
  rw [mergeRows, List.getElem?_map, rows]
  by_cases mem : m.tokenId ∈ tokens fresh
  · rw [if_pos mem]
    by_cases last : LastAt (tokens existing) m.tokenId i
    · rw [if_pos ⟨mem, last⟩, if_pos last]
      cases found : lastRow fresh m.tokenId with
      | none => rfl
      | some f =>
          rw [Option.map_some, delist_of_mem]
          rw [key_of_rowOf found]
          exact mem
    · rw [if_neg fun both => last both.2, if_neg last, Option.map_some, delist_of_mem mem]
  · rw [if_neg mem, if_neg fun both => mem both.1, Option.map_some, delist_of_not_mem mem]

/-- The last fresh row of a token is in the new table. -/
theorem lastRow_mem_mergeRows {fresh : List TokenMeta} {token : Str} {f : TokenMeta}
    (last : lastRow fresh token = some f) (existing : List TokenMeta) :
    f ∈ mergeRows existing fresh := by
  obtain ⟨i, -, here⟩ := (upserted_foldl existing fresh).fresh token f last
  have mem : token ∈ tokens fresh := by
    by_contra absent
    rw [lastRow, lastRowOf_eq_none.mpr absent] at last
    cases last
  refine List.mem_map.mpr ⟨f, List.mem_of_getElem? here, delist_of_mem ?_⟩
  rw [key_of_rowOf last]
  exact mem

end Tickscope.Gateway
