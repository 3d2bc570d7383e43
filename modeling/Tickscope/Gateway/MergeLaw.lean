import Tickscope.Gateway.MarketDiscovery
import Tickscope.Lib.KeyedTable

/-!
# The law of the merge

`merge_and_write_metadata_csv` as an upsert of whole tables. `Merged` says what the loop over the
fresh rows has made of the table and of its index: the old keys in their places, the new keys in
the order of their first appearance, for every key the last fresh row or else the old one. One
row keeps it (`merged_upsert`), `merged_foldl` is the run, and `mergeLaw` adds the pass that
marks what is not fresh as delisted.
-/

namespace Tickscope.Gateway

open Tickscope.Lib

/-- The row of a token. -/
abbrev row (rows : List TokenMeta) (token : Str) : Option TokenMeta :=
  rowOf TokenMeta.tokenId rows token

/-- The last row of a token. -/
abbrev lastRow (rows : List TokenMeta) (token : Str) : Option TokenMeta :=
  lastRowOf TokenMeta.tokenId rows token

/-- The tokens of `fresh` that `existing` does not have, in the order of their first appearance. -/
def newTokens (existing fresh : List TokenMeta) : List Str :=
  (firstSeen (tokens fresh)).filter fun token => token ∉ tokens existing

/-- What a merge of `fresh` into `existing` has to leave. -/
structure MergeLaw (existing fresh merged : List TokenMeta) : Prop where
  distinct : (tokens merged).Nodup
  keys : ∀ token, token ∈ tokens merged ↔ token ∈ tokens existing ∨ token ∈ tokens fresh
  upserted : ∀ token ∈ tokens fresh, row merged token = lastRow fresh token
  delisted : ∀ m ∈ existing, m.tokenId ∉ tokens fresh →
    row merged m.tokenId = some { m with active := false }
  order : tokens merged = tokens existing ++ newTokens existing fresh

/-! ## The loop over the fresh rows -/

/-- The table and its index after the rows `fresh`. -/
structure Merged (existing fresh : List TokenMeta) (table : List TokenMeta × Index) : Prop where
  order : tokens table.1 = tokens existing ++ newTokens existing fresh
  distinct : (tokens table.1).Nodup
  row : ∀ token, row table.1 token = (lastRow fresh token).or (row existing token)
  index : Indexed table
  known : ∀ token ∈ tokens table.1, (table.2.lookup token).isSome

theorem known_indexFrom {rows : List TokenMeta} {i : Nat} {index : Index} {token : Str}
    (known : token ∈ tokens rows ∨ (index.lookup token).isSome) :
    ((indexFrom i index rows).lookup token).isSome := by
  induction rows generalizing i index with
  | nil => exact known.resolve_left List.not_mem_nil
  | cons m rows ih =>
      refine ih ?_
      by_cases same : token = m.tokenId
      · rw [same, AList.lookup_insert]
        exact .inr rfl
      · rw [AList.lookup_insert_ne same]
        exact known.imp_left fun mem => (List.mem_cons.mp mem).resolve_left same

theorem merged_indexFrom {existing : List TokenMeta} (distinct : (tokens existing).Nodup) :
    Merged existing [] (existing, indexFrom 0 ∅ existing) where
  order := (List.append_nil _).symm
  distinct := distinct
  row := fun _ => rfl
  index := by
    have empty : Indexed ([] ++ existing, ∅) := fun token i found => by
      rw [AList.lookup_empty] at found
      cases found
    exact indexed_indexFrom empty
  known := fun _ mem => known_indexFrom (.inl mem)

theorem tokens_concat (rows : List TokenMeta) (m : TokenMeta) :
    tokens (rows ++ [m]) = tokens rows ++ [m.tokenId] := List.map_append

theorem lastRow_concat (rows : List TokenMeta) (m : TokenMeta) (token : Str) :
    lastRow (rows ++ [m]) token = if m.tokenId = token then some m else lastRow rows token :=
  lastRowOf_concat _ rows m token

theorem newTokens_concat (existing fresh : List TokenMeta) (m : TokenMeta) :
    newTokens existing (fresh ++ [m]) =
      if m.tokenId ∈ tokens existing ++ newTokens existing fresh then newTokens existing fresh
      else newTokens existing fresh ++ [m.tokenId] := by
  have known : m.tokenId ∈ tokens existing ++ newTokens existing fresh ↔
      m.tokenId ∈ tokens existing ∨ m.tokenId ∈ firstSeen (tokens fresh) := by
    rw [List.mem_append, newTokens, List.mem_filter, decide_eq_true_eq]
    tauto
  rw [newTokens, tokens_concat, firstSeen_concat]
  by_cases old : m.tokenId ∈ tokens existing
  · rw [if_pos (known.mpr (.inl old))]
    split
    · rfl
    · rw [List.filter_append, List.filter_singleton, decide_eq_false (not_not.mpr old)]
      exact List.append_nil _
  · by_cases again : m.tokenId ∈ firstSeen (tokens fresh)
    · rw [if_pos again, if_pos (known.mpr (.inr again))]
      rfl
    · rw [if_neg again, if_neg fun mem => (known.mp mem).elim old again,
        List.filter_append, List.filter_singleton, decide_eq_true old]
      rfl

/-- **One fresh row.** -/
theorem merged_upsert {existing fresh : List TokenMeta} {table : List TokenMeta × Index}
    (merged : Merged existing fresh table) (m : TokenMeta) :
    Merged existing (fresh ++ [m]) (upsert table m) := by
  have indexed := (tokens_upsert merged.index m).2.2
  have last : ∀ token, (if m.tokenId = token then some m else row table.1 token) =
      (lastRow (fresh ++ [m]) token).or (row existing token) := by
    intro token
    rw [lastRow_concat, merged.row]
    split <;> rfl
  unfold upsert at indexed ⊢
  cases found : table.2.lookup m.tokenId with
  | some i =>
      rw [found] at indexed
      have here := merged.index m.tokenId i found
      have same : tokens (table.1.set i m) = tokens table.1 := keys_set here
      have seen : m.tokenId ∈ tokens existing ++ newTokens existing fresh :=
        merged.order ▸ List.mem_of_getElem? here
      refine ⟨?_, ?_, ?_, indexed, ?_⟩
      · rw [newTokens_concat, if_pos seen, same, merged.order]
      · rw [same]
        exact merged.distinct
      · intro token
        rw [row, rowOf_set merged.distinct here, last]
      · intro token mem
        rw [same] at mem
        exact merged.known token mem
  | none =>
      rw [found] at indexed
      have new : m.tokenId ∉ tokens table.1 := by
        intro mem
        have known := merged.known m.tokenId mem
        rw [found] at known
        cases known
      refine ⟨?_, ?_, ?_, indexed, ?_⟩
      · rw [newTokens_concat, if_neg (merged.order ▸ new), tokens_concat, merged.order,
          List.append_assoc]
      · rw [tokens_concat, ← List.concat_eq_append]
        exact merged.distinct.concat new
      · intro token
        rw [row, rowOf_concat new, last]
      · intro token mem
        rw [tokens_concat, List.mem_append, List.mem_singleton] at mem
        by_cases same : token = m.tokenId
        · rw [same, AList.lookup_insert]
          rfl
        · rw [AList.lookup_insert_ne same]
          exact merged.known token (mem.resolve_right same)

theorem merged_foldl {existing : List TokenMeta} (distinct : (tokens existing).Nodup)
    (fresh : List TokenMeta) :
    Merged existing fresh (fresh.foldl upsert (existing, indexFrom 0 ∅ existing)) := by
  induction fresh using List.reverseRecOn with
  | nil => exact merged_indexFrom distinct
  | append_singleton fresh m ih =>
      rw [List.foldl_concat]
      exact merged_upsert ih m

/-! ## The whole merge -/

theorem tokenId_delist (fresh : List TokenMeta) (m : TokenMeta) :
    (delist fresh m).tokenId = m.tokenId := by
  rw [delist]
  split <;> rfl

theorem delist_of_mem {fresh : List TokenMeta} {m : TokenMeta} (mem : m.tokenId ∈ tokens fresh) :
    delist fresh m = m := by
  rcases List.mem_map.mp mem with ⟨f, mem, same⟩
  exact if_pos (List.any_eq_true.mpr ⟨f, mem, decide_eq_true same⟩)

theorem delist_of_not_mem {fresh : List TokenMeta} {m : TokenMeta}
    (absent : m.tokenId ∉ tokens fresh) : delist fresh m = { m with active := false } := by
  refine if_neg fun any => absent ?_
  rcases List.any_eq_true.mp any with ⟨f, mem, same⟩
  exact List.mem_map.mpr ⟨f, mem, of_decide_eq_true same⟩

/-- The row of a token after the merge. -/
theorem row_mergeRows {existing : List TokenMeta} (distinct : (tokens existing).Nodup)
    (fresh : List TokenMeta) (token : Str) :
    row (mergeRows existing fresh) token =
      if token ∈ tokens fresh then lastRow fresh token
      else (row existing token).map fun m => { m with active := false } := by
  have merged := merged_foldl distinct fresh
  rw [mergeRows, row, rowOf_map (tokenId_delist fresh)]
  have before := merged.row token
  rw [row] at before
  rw [before]
  split
  · rename_i mem
    cases found : lastRow fresh token with
    | none => exact absurd mem (lastRowOf_eq_none.mp found)
    | some m =>
        rw [Option.some_or, Option.map_some, delist_of_mem]
        rw [key_of_rowOf found]
        exact mem
  · rename_i absent
    rw [lastRow, lastRowOf_eq_none.mpr absent, Option.none_or]
    refine Option.map_congr fun m found => delist_of_not_mem ?_
    rw [key_of_rowOf (Option.mem_def.mp found)]
    exact absent

theorem order_mergeRows {existing : List TokenMeta} (distinct : (tokens existing).Nodup)
    (fresh : List TokenMeta) :
    tokens (mergeRows existing fresh) = tokens existing ++ newTokens existing fresh := by
  rw [← (merged_foldl distinct fresh).order, mergeRows, tokens, List.map_map]
  exact List.map_congr_left fun m _ => tokenId_delist fresh m

/-- **The merge is an upsert.** -/
theorem mergeLaw {existing : List TokenMeta} (distinct : (tokens existing).Nodup)
    (fresh : List TokenMeta) : MergeLaw existing fresh (mergeRows existing fresh) where
  distinct := by
    rw [order_mergeRows distinct, ← (merged_foldl distinct fresh).order]
    exact (merged_foldl distinct fresh).distinct
  keys := fun token => by
    rw [order_mergeRows distinct, List.mem_append, newTokens, List.mem_filter, mem_firstSeen,
      decide_eq_true_eq]
    tauto
  upserted := fun token mem => by rw [row_mergeRows distinct, if_pos mem]
  delisted := fun m mem absent => by
    rw [row_mergeRows distinct, if_neg absent, row, rowOf_of_mem distinct mem]
    rfl
  order := order_mergeRows distinct fresh

/-- Two tables that obey the law of one merge are equal. -/
theorem MergeLaw.unique {existing fresh merged merged' : List TokenMeta}
    (law : MergeLaw existing fresh merged) (law' : MergeLaw existing fresh merged') :
    merged = merged' := by
  refine ext_rowOf law.distinct (law.order.trans law'.order.symm) fun token => ?_
  by_cases mem : token ∈ tokens fresh
  · exact (law.upserted token mem).trans (law'.upserted token mem).symm
  · by_cases old : token ∈ tokens existing
    · obtain ⟨m, mem', rfl⟩ := List.mem_map.mp old
      exact (law.delisted m mem' mem).trans (law'.delisted m mem' mem).symm
    · have absent : ∀ {rows}, MergeLaw existing fresh rows → token ∉ tokens rows := fun law seen =>
        ((law.keys token).mp seen).elim old mem
      have none := rowOf_eq_none.mpr (absent law)
      exact none.trans (rowOf_eq_none.mpr (absent law')).symm

/-- Merging the same rows again changes nothing. -/
theorem mergeRows_again {existing : List TokenMeta} (distinct : (tokens existing).Nodup)
    (fresh : List TokenMeta) :
    mergeRows (mergeRows existing fresh) fresh = mergeRows existing fresh := by
  have law := mergeLaw distinct fresh
  have again := mergeLaw law.distinct fresh
  have none : newTokens (mergeRows existing fresh) fresh = [] := by
    refine List.filter_eq_nil_iff.mpr fun token mem => ?_
    rw [decide_eq_true_eq, not_not]
    exact (law.keys token).mpr (.inr (mem_firstSeen.mp mem))
  have order : tokens (mergeRows (mergeRows existing fresh) fresh) =
      tokens (mergeRows existing fresh) := by
    rw [again.order, none, List.append_nil]
  -- the second table obeys the law of the first merge
  refine MergeLaw.unique ⟨again.distinct, ?_, again.upserted, ?_, order.trans law.order⟩ law
  · intro token
    rw [order]
    exact law.keys token
  · intro m mem absent
    have old := mem_of_rowOf (law.delisted m mem absent)
    exact again.delisted { m with active := false } old absent

/-- **The merge law.** A merge upserts the fresh rows, marks the rest as delisted, keeps the places
of the old rows and can be repeated. -/
theorem merge_law {existing : List TokenMeta} (distinct : (tokens existing).Nodup)
    (fresh : List TokenMeta) :
    MergeLaw existing fresh (mergeRows existing fresh) ∧
      mergeRows (mergeRows existing fresh) fresh = mergeRows existing fresh :=
  ⟨mergeLaw distinct fresh, mergeRows_again distinct fresh⟩

/-- A known token, a token that is fetched twice and one that is not fetched any more. -/
theorem merge_law_repeated_token :
    let one : TokenMeta := ⟨ascii "1", ascii "a", ascii "YES", [], [], true, 0⟩
    let two : TokenMeta := ⟨ascii "2", ascii "a", ascii "NO", [], [], true, 0⟩
    let fee : TokenMeta := { one with takerFeeBps := 250 }
    let three : TokenMeta := ⟨ascii "3", ascii "b", ascii "YES", [], [], true, 0⟩
    let late : TokenMeta := { three with takerFeeBps := 100 }
    MergeLaw [one, two] [three, fee, late] (mergeRows [one, two] [three, fee, late]) ∧
      mergeRows (mergeRows [one, two] [three, fee, late]) [three, fee, late] =
        mergeRows [one, two] [three, fee, late] :=
  merge_law (by decide) _

end Tickscope.Gateway
